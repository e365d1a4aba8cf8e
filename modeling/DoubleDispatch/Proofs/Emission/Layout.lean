import DoubleDispatch.Emission.Item
import DoubleDispatch.Proofs.Text.Split
import DoubleDispatch.Proofs.Token.Nesting

/-!
# The text of generated files

The lines of a generated file: those of a block are its header, what belongs to it four spaces
further in, and the braces around that. A pen that writes a declaration leaves its lines behind, at
the level it stands at and comes back to, and never steps out at the margin on the way.

The text of a generated file is a list of characters here: what spacing, type parameter lists and
indentation come to, and that the line of a method made of words may stand in the body of a type.
-/

namespace DoubleDispatch

open Piece (Ends ends_cons)
open Layout (Pen Stroke)

namespace Layout

/-! ### Lists of words -/

/-- A separator before each part and one at the end are one at the start and one behind each. -/
theorem flatMap_append_separator (sep : String) (parts : List String) :
    (parts.flatMap fun part ↦ sep.toList ++ part.toList) ++ sep.toList =
      sep.toList ++ parts.flatMap fun part ↦ part.toList ++ sep.toList := by
  induction parts with
  | nil => simp
  | cons part parts ih => simp [ih]

/-- The characters of spaced words: each word with a blank behind it. -/
theorem toList_spaced {words : List String} (h : ∀ word ∈ words, word ≠ "") :
    (spaced words).toList = words.flatMap fun word ↦ word.toList ++ [' '] := by
  cases words with
  | nil => rfl
  | cons word words =>
    have hword : word ≠ "" := h word List.mem_cons_self
    have htext : (" ".intercalate (word :: words)).isEmpty = false := by
      rw [Bool.eq_false_iff, Ne, String.isEmpty_iff, ← String.toList_eq_nil_iff,
        toList_intercalate_cons, List.append_eq_nil_iff, String.toList_eq_nil_iff]
      exact fun hempty ↦ hword hempty.1
    rw [spaced, htext, if_neg nofun, String.toList_append, toList_intercalate_cons,
      List.append_assoc, flatMap_append_separator, List.flatMap_cons, List.append_assoc]
    rfl

theorem toList_typeParameterList_cons (name : String) (names : List String) :
    (typeParameterList (name :: names)).toList =
      '<' :: (", ".intercalate (name :: names)).toList ++ ['>'] := by
  rw [typeParameterList, List.isEmpty_cons, if_neg nofun, String.toList_append,
    String.toList_append]
  rfl

/-! ### Lines -/

/-- A line one level further in. -/
def indent (line : String) : String := "    " ++ line

/-- A header and, in braces, what belongs to it. -/
def block (header : String) (body : List String) : List String :=
  header :: "\x7b" :: body.map indent ++ ["\x7d"]

/-- The text of lines at a depth of indentation. -/
def textAt (depth : Nat) (lines : List String) : List Char :=
  lines.flatMap fun line ↦ (Blank.indent depth).text ++ line.toList ++ ['\n']

/-- The text of lines put together is the texts put together. -/
theorem textAt_append (depth : Nat) (lines later : List String) :
    textAt depth (lines ++ later) = textAt depth lines ++ textAt depth later :=
  List.flatMap_append

/-- One level further in are four more spaces. -/
theorem text_indent_succ (depth : Nat) :
    (Blank.indent (depth + 1)).text = (Blank.indent depth).text ++ "    ".toList :=
  (List.replicate_append_replicate (n := 4 * depth) (m := 4) (a := ' ')).symm

/-- Indented lines are the lines one level deeper. -/
theorem textAt_map_indent (depth : Nat) (lines : List String) :
    textAt depth (lines.map indent) = textAt (depth + 1) lines := by
  rw [textAt, List.flatMap_map, textAt]
  congr 1
  funext line
  rw [indent, String.toList_append, ← List.append_assoc, text_indent_succ]

/-- A block at a depth: its header, and its body one level further in. -/
theorem textAt_block (depth : Nat) (header : String) (body : List String) :
    textAt depth (block header body) =
      (Blank.indent depth).text ++ header.toList ++ ['\n'] ++
        ((Blank.indent depth).text ++ ['\x7b', '\n'] ++ textAt (depth + 1) body ++
          ((Blank.indent depth).text ++ ['\x7d', '\n'])) := by
  rw [block, ← textAt_map_indent]
  simp [textAt]

/-! ### The pen -/

namespace Pen

/-- The pen with lines behind it, written at the level it stands at. -/
def write (pen : Pen) (lines : List String) : Pen :=
  { pen with text := pen.text ++ String.ofList (textAt pen.depth lines) }

@[simp]
theorem write_depth (pen : Pen) (lines : List String) : (pen.write lines).depth = pen.depth := rfl

theorem write_nil (pen : Pen) : pen.write [] = pen := by
  simp [write, textAt]

/-- Lines written one batch after another are written at once. -/
theorem write_write (pen : Pen) (lines later : List String) :
    (pen.write lines).write later = pen.write (lines ++ later) := by
  simp [write, textAt_append, String.append_assoc]

theorem draw_line (pen : Pen) (text : String) : pen.draw (.line text) = pen.write [text] := by
  have hindentation :
      (String.join (List.replicate pen.depth "    ")).toList = (Blank.indent pen.depth).text := by
    show _ = List.replicate (4 * pen.depth) ' '
    rw [String.toList_join, List.flatMap_replicate, Nat.mul_comm]
    exact List.flatten_replicate_replicate (m := 4) (a := ' ')
  rw [draw, write, Pen.mk.injEq]
  refine ⟨String.toList_injective ?_, rfl⟩
  simp [textAt, hindentation]

/-- The pen where a step out at the margin is an error. -/
def draw? (pen : Pen) (stroke : Stroke) : Option Pen :=
  if stroke = .leave ∧ pen.depth = 0 then none else some (pen.draw stroke)

/-- A line is drawn at any depth. -/
theorem draw?_line (pen : Pen) (text : String) :
    pen.draw? (.line text) = some (pen.write [text]) := by
  rw [draw?, if_neg nofun, draw_line]

theorem draw?_enter (pen : Pen) : pen.draw? .enter = some ⟨pen.text, pen.depth + 1⟩ := by
  rw [draw?, if_neg nofun, draw]

/-- Stepping out undoes a step in, also for the pen that refuses to step out at the margin. -/
theorem draw?_leave (pen : Pen) : (⟨pen.text, pen.depth + 1⟩ : Pen).draw? .leave = some pen := by
  rw [draw?, if_neg fun h ↦ Nat.succ_ne_zero _ h.2, draw, Nat.add_sub_cancel]

/-- Lines one after the other. -/
theorem foldlM_lines (pen : Pen) (lines : List String) :
    (lines.map Stroke.line).foldlM draw? pen = some (pen.write lines) := by
  induction lines generalizing pen with
  | nil => rw [write_nil]; rfl
  | cons line lines ih =>
    rw [List.map_cons, List.foldlM_cons, draw?_line, Option.bind_eq_bind, Option.bind_some, ih,
      write_write, List.singleton_append]

/-- A block leaves its lines behind where its body leaves its own one level further in. -/
theorem foldlM_block {body : List Stroke} {lines : List String}
    (h : ∀ pen, body.foldlM draw? pen = some (pen.write lines)) (pen : Pen) (header : String) :
    (Stroke.block header body).foldlM draw? pen = some (pen.write (block header lines)) := by
  have hbody (pen : Pen) : (⟨pen.text, pen.depth + 1⟩ : Pen).write lines =
      ⟨(pen.write (lines.map indent)).text, pen.depth + 1⟩ := by
    rw [write, write, textAt_map_indent]
  have hleave (pen : Pen) (lines : List String) :
      (⟨(pen.write lines).text, pen.depth + 1⟩ : Pen).draw? .leave = some (pen.write lines) :=
    draw?_leave (pen.write lines)
  simp only [Stroke.block, List.cons_append, List.foldlM_cons, List.foldlM_append,
    List.foldlM_nil, draw?_line, draw?_enter, h, hbody, hleave, Option.bind_eq_bind,
    Option.bind_some, Option.pure_def, write_write, List.nil_append, block]

/-- Where the pen never steps out at the margin, it draws as the one that may not. -/
theorem foldl_eq_of_foldlM {strokes : List Stroke} {pen behind : Pen}
    (h : strokes.foldlM draw? pen = some behind) : strokes.foldl draw pen = behind := by
  induction strokes generalizing pen with
  | nil => exact Option.some.inj h
  | cons stroke strokes ih =>
    obtain ⟨next, hnext, hlater⟩ := Option.bind_eq_some_iff.1 h
    rw [draw?, Option.ite_none_left_eq_some] at hnext
    obtain rfl : pen.draw stroke = next := Option.some.inj hnext.2
    exact ih hlater

end Pen

end Layout

/-! ### Methods -/

namespace IsContent

/-- Contents with commas between them, in front of one more. -/
theorem intercalate_append {parts : List String} {t : List Char}
    (hparts : ∀ part ∈ parts, IsContent part.toList) (ht : IsContent t) (hends : Ends t) :
    IsContent ((", ".intercalate parts).toList ++ t) := by
  cases parts with
  | nil => simpa using ht
  | cons part parts =>
    obtain ⟨hpart, hlater⟩ := List.forall_mem_cons.1 hparts
    rw [toList_intercalate_cons, List.append_assoc]
    suffices h : IsContent ((parts.flatMap fun later ↦ ", ".toList ++ later.toList) ++ t) ∧
        Ends ((parts.flatMap fun later ↦ ", ".toList ++ later.toList) ++ t) from
      hpart.append h.1 h.2
    clear hparts
    induction parts with
    | nil => exact ⟨ht, hends⟩
    | cons later parts ih =>
      obtain ⟨hfirst, hmore⟩ := List.forall_mem_cons.1 hlater
      obtain ⟨hcontent, hbreak⟩ := ih hmore
      rw [List.flatMap_cons, List.append_assoc, List.append_assoc]
      exact ⟨mark_append (m := .comma) nofun ⟨rfl, rfl⟩
        (blank_append .space (hfirst.append hcontent hbreak)),
        ends_cons (by decide) (by decide) _⟩

/-- Words in front of content are content. -/
theorem spaced_append {words : List String} {t : List Char}
    (hwords : ∀ word ∈ words, Text.isIdentifier word.toList) (ht : IsContent t) :
    IsContent ((Layout.spaced words).toList ++ t) := by
  have hne : ∀ word ∈ words, word ≠ "" := by
    rintro word hword rfl
    cases hwords _ hword
  rw [Layout.toList_spaced hne]
  clear hne
  induction words with
  | nil => exact ht
  | cons word words ih =>
    obtain ⟨hword, hlater⟩ := List.forall_mem_cons.1 hwords
    rw [List.flatMap_cons, List.append_assoc, List.append_assoc]
    exact (IsContent.word hword).append (blank_append .space (ih hlater))
      (ends_cons (by decide) (by decide) _)

/-- A list of type parameters in front of content is content, and no word goes on in it. -/
theorem typeParameterList_append {names : List String} {t : List Char}
    (hnames : ∀ name ∈ names, Text.isIdentifier name.toList) (ht : IsContent t) (hends : Ends t) :
    IsContent ((Layout.typeParameterList names).toList ++ t) ∧
      Ends ((Layout.typeParameterList names).toList ++ t) := by
  cases names with
  | nil => exact ⟨ht, hends⟩
  | cons name names =>
    have hclose : IsContent (Mark.greater.text ++ t) := mark_append nofun ⟨rfl, rfl⟩ ht
    have hlist := intercalate_append (fun name hname ↦ word (hnames name hname)) hclose
      (ends_cons (by decide) (by decide) t)
    rw [Layout.toList_typeParameterList_cons, List.append_assoc]
    exact ⟨mark_append (m := .less) nofun ⟨rfl, rfl⟩ hlist,
      ends_cons (by decide) (by decide) _⟩

end IsContent

namespace Method

/-- A method whose names are words, and whose parameter types and expression may stand inside a
group. -/
structure IsWellFormed (m : Method) : Prop where
  modifiers : ∀ word ∈ m.modifiers, Text.isIdentifier word.toList
  returnType : Text.isIdentifier m.returnType.toList
  name : Text.isIdentifier m.name.toList
  typeParameters : ∀ name ∈ m.typeParameters, Text.isIdentifier name.toList
  parameters : ∀ p ∈ m.parameters, IsContent p.type.toList ∧ Text.isIdentifier p.name.toList
  expression : ∀ text, m.expression = some text → IsContent text.toList

/-- The line of a method may stand in the body of a type. -/
theorem IsWellFormed.isContent_line {m : Method} (h : m.IsWellFormed) :
    IsContent m.line.toList := by
  have hend : IsContent [';'] := .mark_append (m := .semicolon) (by decide) ⟨rfl, rfl⟩ .nil
  obtain ⟨body, hline, hbody⟩ : ∃ body : String, m.line = Layout.spaced m.modifiers ++
      m.returnType ++ " " ++ m.name ++ Layout.typeParameterList m.typeParameters ++ "(" ++
      ", ".intercalate (m.parameters.map fun p ↦ p.type ++ " " ++ p.name) ++ ")" ++ body ++ ";" ∧
      IsContent (body.toList ++ [';']) := by
    cases hexpression : m.expression with
    | none => exact ⟨"", by rw [line, hexpression], hend⟩
    | some text =>
      refine ⟨" => " ++ text, by rw [line, hexpression], ?_⟩
      have htext := (h.expression text hexpression).append hend
        (ends_cons (by decide) (by decide) [])
      have harrow : IsContent (['=', '>', ' '] ++ (text.toList ++ [';'])) :=
        .mark_append (m := .equals) (by decide) ⟨rfl, rfl⟩
          (.mark_append (m := .greater) (by decide) ⟨rfl, rfl⟩ (.blank_append .space htext))
      rw [String.toList_append, List.append_assoc]
      exact .blank_append .space harrow
  have hparameters : ∀ part ∈ m.parameters.map (fun p ↦ p.type ++ " " ++ p.name),
      IsContent part.toList := by
    rw [List.forall_mem_map]
    intro p hp
    obtain ⟨htype, hname⟩ := h.parameters p hp
    rw [String.toList_append, String.toList_append, List.append_assoc]
    exact htype.append (.blank_append .space (.word hname))
      (ends_cons (by decide) (by decide) _)
  have hlist : IsContent (", ".intercalate (m.parameters.map fun p ↦
      p.type ++ " " ++ p.name)).toList := by
    simpa using IsContent.intercalate_append hparameters .nil Piece.ends_nil
  have hgroup := IsContent.enclose_append .paren hlist hbody
  rw [Delimiter.enclose, List.append_assoc, List.append_assoc] at hgroup
  obtain ⟨htypeParameters, hends⟩ := IsContent.typeParameterList_append h.typeParameters hgroup
    (ends_cons (by decide) (by decide) _)
  have hname := (IsContent.word h.name).append htypeParameters hends
  have hreturn := (IsContent.word h.returnType).append (.blank_append .space hname)
    (ends_cons (by decide) (by decide) _)
  simp only [hline, String.toList_append, List.append_assoc]
  exact IsContent.spaced_append h.modifiers hreturn

end Method

/-! ### Files -/

mutual

/-- The lines of a declaration. -/
def Item.lines : Item → List String
  | .type t => Layout.block t.header (t.methods.map (·.line))
  | .scope name items => Layout.block ("namespace " ++ name) (linesOf items)

/-- The lines of declarations one after the other. -/
def linesOf : List Item → List String
  | [] => []
  | item :: items => item.lines ++ linesOf items

end

mutual

/-- The pen leaves the lines of a declaration behind, at the level it stands at. -/
theorem Item.foldlM_strokes (item : Item) (pen : Pen) :
    item.strokes.foldlM Pen.draw? pen = some (pen.write item.lines) := by
  cases item with
  | type t =>
    have hmethods (pen : Pen) : (t.methods.map fun m ↦ .line m.line).foldlM Pen.draw? pen =
        some (pen.write (t.methods.map (·.line))) := by
      rw [← Pen.foldlM_lines, List.map_map]
      rfl
    exact Pen.foldlM_block hmethods pen t.header
  | scope name items => exact Pen.foldlM_block (foldlM_strokesOf items) pen ("namespace " ++ name)

/-- The strokes of items draw the lines of the items, and come back to the depth they began at. -/
theorem foldlM_strokesOf (items : List Item) (pen : Pen) :
    (strokesOf items).foldlM Pen.draw? pen = some (pen.write (linesOf items)) := by
  cases items with
  | nil =>
    rw [linesOf, Pen.write_nil]
    rfl
  | cons item items =>
    rw [strokesOf, List.foldlM_append, item.foldlM_strokes, Option.bind_eq_bind, Option.bind_some,
      foldlM_strokesOf items, Pen.write_write, linesOf]

end

namespace GeneratedFile

/-- The lines of a file. -/
def lines (file : GeneratedFile) : List String :=
  file.usings.map (fun u ↦ "using " ++ u ++ ";") ++ linesOf file.items

/-- The pen leaves the lines of a file behind, and never steps out at the margin. -/
theorem foldlM_strokes (file : GeneratedFile) :
    file.strokes.foldlM Pen.draw? .start = some (Pen.start.write file.lines) := by
  have husings : file.usings.map (fun u ↦ Stroke.line ("using " ++ u ++ ";")) =
      (file.usings.map fun u ↦ "using " ++ u ++ ";").map Stroke.line := by
    rw [List.map_map]
    rfl
  rw [strokes, husings, List.foldlM_append, Pen.foldlM_lines, Option.bind_eq_bind,
    Option.bind_some, foldlM_strokesOf, Pen.write_write, lines]

/-- The rendered text of a file is its lines at the margin. -/
theorem toList_render (file : GeneratedFile) :
    file.render.toList = Layout.textAt 0 file.lines := by
  rw [render, Pen.foldl_eq_of_foldlM file.foldlM_strokes]
  simp [Pen.write, Pen.start]

end GeneratedFile

end DoubleDispatch
