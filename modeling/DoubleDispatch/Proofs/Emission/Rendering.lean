import DoubleDispatch.Proofs.Emission.Layout

/-!
# Rendering line by line

The text of a generated file read back at its line breaks. Where no string of the file has a line
break in it, the lines are those of its declarations, put together block by block: the lines inside
a block are those that stand there on their own, four spaces further in. Counted from the margin, a
line is indented by four spaces for each block around it, and the pen that wrote them all is back at
the margin without ever having stepped out there.
-/

namespace DoubleDispatch

open Layout (Pen Stroke)

/-! ### Rows -/

/-- A line and the number of blocks around it. -/
structure Row where
  depth : Nat
  text : String
deriving DecidableEq, Repr, Inhabited

namespace Row

/-- A row with its indentation. -/
def line (row : Row) : String := String.ofList (List.replicate (4 * row.depth) ' ') ++ row.text

theorem line_zero (text : String) : (Row.mk 0 text).line = text := by
  simp [line]

/-- Indenting a text once more is the same as writing it one level deeper. -/
theorem line_indent (depth : Nat) (text : String) :
    (Row.mk depth (Layout.indent text)).line = (Row.mk (depth + 1) text).line := by
  have hspaces : List.replicate (4 * (depth + 1)) ' ' =
      List.replicate (4 * depth) ' ' ++ "    ".toList := Layout.text_indent_succ depth
  rw [line, line, hspaces, String.ofList_append, String.ofList_toList, Layout.indent,
    String.append_assoc]

/-- The rows of a block with a number of blocks around it. -/
def block (depth : Nat) (header : String) (body : List Row) : List Row :=
  ⟨depth, header⟩ :: ⟨depth, "\x7b"⟩ :: body ++ [⟨depth, "\x7d"⟩]

/-- The rows of a block are its lines, if those of its body are the lines of that one level further
in. -/
theorem map_line_block {depth : Nat} {body : List Row} {lines : List String}
    (h : body.map line = lines.map fun text ↦ (Row.mk (depth + 1) text).line) (header : String) :
    (block depth header body).map line =
      (Layout.block header lines).map fun text ↦ (Row.mk depth text).line := by
  have hindented : (lines.map Layout.indent).map (fun text ↦ (Row.mk depth text).line) =
      body.map line := by
    rw [h, List.map_map]
    exact List.map_congr_left fun text _ ↦ line_indent depth text
  simp [block, Layout.block, hindented]

end Row

mutual

/-- The rows of a declaration with a number of blocks around it. -/
def Item.rows (depth : Nat) : Item → List Row
  | .type t => Row.block depth t.header (t.methods.map fun m ↦ ⟨depth + 1, m.line⟩)
  | .scope name items => Row.block depth ("namespace " ++ name) (rowsOf (depth + 1) items)

/-- The rows of declarations one after the other. -/
def rowsOf (depth : Nat) : List Item → List Row
  | [] => []
  | item :: items => item.rows depth ++ rowsOf depth items

end

/-- The rows of a file. -/
def GeneratedFile.rows (file : GeneratedFile) : List Row :=
  file.usings.map (fun u ↦ ⟨0, "using " ++ u ++ ";"⟩) ++ rowsOf 0 file.items

mutual

/-- The rows of an item are its lines, each indented by the depth it stands at. -/
theorem Item.map_line_rows (item : Item) (depth : Nat) :
    (item.rows depth).map Row.line = item.lines.map fun text ↦ (Row.mk depth text).line := by
  cases item with
  | type t =>
    rw [Item.rows, Item.lines]
    refine Row.map_line_block ?_ t.header
    rw [List.map_map, List.map_map]
    rfl
  | scope name items =>
    rw [Item.rows, Item.lines]
    exact Row.map_line_block (map_line_rowsOf items (depth + 1)) ("namespace " ++ name)

/-- The rows of items are their lines, by recursion over what stands in them. -/
theorem map_line_rowsOf (items : List Item) (depth : Nat) :
    (rowsOf depth items).map Row.line =
      (linesOf items).map fun text ↦ (Row.mk depth text).line := by
  cases items with
  | nil => rfl
  | cons item items =>
    rw [rowsOf, linesOf, List.map_append, List.map_append, item.map_line_rows depth,
      map_line_rowsOf items depth]

end

/-- **The rows of a file are its lines.** -/
theorem GeneratedFile.map_line_rows (file : GeneratedFile) :
    file.rows.map Row.line = file.lines := by
  rw [rows, lines, List.map_append, map_line_rowsOf, List.map_map]
  simp only [Function.comp_def, Row.line_zero, List.map_id']

/-! ### Line breaks -/

/-- A text on one line. -/
def IsUnbroken (s : String) : Prop := '\n' ∉ s.toList

instance : DecidablePred IsUnbroken := fun s ↦ inferInstanceAs (Decidable ('\n' ∉ s.toList))

namespace IsUnbroken

variable {s t : String} {parts : List String}

/-- Two texts without a line break have none together. -/
theorem append (hs : IsUnbroken s) (ht : IsUnbroken t) : IsUnbroken (s ++ t) := by
  rw [IsUnbroken, String.toList_append, List.mem_append, not_or]
  exact ⟨hs, ht⟩

/-- Texts without a line break have none when they are joined by one that has none. -/
theorem intercalate (hs : IsUnbroken s) (hparts : ∀ part ∈ parts, IsUnbroken part) :
    IsUnbroken (s.intercalate parts) := by
  cases parts with
  | nil => simp [IsUnbroken]
  | cons part parts =>
    obtain ⟨hpart, hlater⟩ := List.forall_mem_cons.1 hparts
    rw [IsUnbroken, toList_intercalate_cons, List.mem_append, not_or]
    refine ⟨hpart, fun hmem ↦ ?_⟩
    obtain ⟨later, hin, hmem⟩ := List.mem_flatMap.1 hmem
    exact (List.mem_append.1 hmem).elim hs (hlater later hin)

theorem spaced (hparts : ∀ part ∈ parts, IsUnbroken part) : IsUnbroken (Layout.spaced parts) := by
  rw [Layout.spaced]
  split
  · decide
  · exact (intercalate (by decide) hparts).append (by decide)

theorem typeParameterList (hparts : ∀ part ∈ parts, IsUnbroken part) :
    IsUnbroken (Layout.typeParameterList parts) := by
  rw [Layout.typeParameterList]
  split
  · decide
  · exact (append (by decide) (intercalate (by decide) hparts)).append (by decide)

/-- The lines of a block are unbroken if its parts are. -/
theorem block (hs : IsUnbroken s) (hparts : ∀ part ∈ parts, IsUnbroken part) :
    ∀ line ∈ Layout.block s parts, IsUnbroken line := by
  simp only [Layout.block, List.cons_append, List.forall_mem_cons, List.forall_mem_append,
    List.forall_mem_map]
  exact ⟨hs, by decide, fun part hpart ↦ append (by decide) (hparts part hpart), by decide,
    List.forall_mem_nil _⟩

end IsUnbroken

/-- The strings of a method. -/
def Method.strings (m : Method) : List String :=
  m.modifiers ++ [m.returnType, m.name] ++ m.typeParameters ++
    m.parameters.flatMap (fun p ↦ [p.type, p.name]) ++ m.expression.toList

/-- The strings of a type. -/
def TypeBlock.strings (t : TypeBlock) : List String :=
  t.modifiers ++ [t.keyword, t.name] ++ t.typeParameters ++ t.methods.flatMap (·.strings)

mutual

/-- The strings of a declaration. -/
def Item.strings : Item → List String
  | .type t => t.strings
  | .scope name items => name :: stringsOf items

/-- The strings of declarations. -/
def stringsOf : List Item → List String
  | [] => []
  | item :: items => item.strings ++ stringsOf items

end

/-- The strings of a file. -/
def GeneratedFile.strings (file : GeneratedFile) : List String :=
  file.usings ++ stringsOf file.items

/-- A method without a line break in its strings is one line. -/
theorem Method.isUnbroken_line (m : Method) (h : ∀ s ∈ m.strings, IsUnbroken s) :
    IsUnbroken m.line := by
  simp only [strings, List.forall_mem_append, List.forall_mem_cons, List.forall_mem_flatMap] at h
  obtain ⟨⟨⟨⟨hmodifiers, hreturn, hname, -⟩, htypeParameters⟩, hparameters⟩, hexpression⟩ := h
  have hlist : ∀ part ∈ m.parameters.map (fun p ↦ p.type ++ " " ++ p.name), IsUnbroken part := by
    rw [List.forall_mem_map]
    intro p hp
    obtain ⟨htype, hname, -⟩ := hparameters p hp
    exact (htype.append (by decide)).append hname
  have hfront : IsUnbroken (Layout.spaced m.modifiers ++ m.returnType ++ " " ++ m.name) :=
    (((IsUnbroken.spaced hmodifiers).append hreturn).append (by decide)).append hname
  have hsignature : IsUnbroken (Layout.spaced m.modifiers ++ m.returnType ++ " " ++ m.name ++
      Layout.typeParameterList m.typeParameters ++ "(" ++
      ", ".intercalate (m.parameters.map fun p ↦ p.type ++ " " ++ p.name) ++ ")") :=
    (((hfront.append (.typeParameterList htypeParameters)).append (by decide)).append
      (.intercalate (by decide) hlist)).append (by decide)
  rw [line]
  cases hm : m.expression with
  | none => exact (hsignature.append (by decide)).append (by decide)
  | some text =>
    have htext : IsUnbroken text := hexpression text (by simp [hm])
    exact (hsignature.append (.append (by decide) htext)).append (by decide)

/-- The header of a type without a line break in its strings is one line. -/
theorem TypeBlock.isUnbroken_header (t : TypeBlock) (h : ∀ s ∈ t.strings, IsUnbroken s) :
    IsUnbroken t.header := by
  simp only [strings, List.forall_mem_append, List.forall_mem_cons] at h
  obtain ⟨⟨⟨hmodifiers, hkeyword, hname, -⟩, htypeParameters⟩, -⟩ := h
  rw [header]
  exact ((((IsUnbroken.spaced hmodifiers).append hkeyword).append (by decide)).append
    hname).append (.typeParameterList htypeParameters)

mutual

/-- The lines of an item are unbroken if its strings are. -/
theorem Item.isUnbroken_lines (item : Item) (h : ∀ s ∈ item.strings, IsUnbroken s) :
    ∀ line ∈ item.lines, IsUnbroken line := by
  cases item with
  | type t =>
    rw [Item.lines]
    refine .block (t.isUnbroken_header h) (List.forall_mem_map.2 fun m hm ↦ ?_)
    exact m.isUnbroken_line fun s hs ↦
      h s (List.mem_append_right _ (List.mem_flatMap_of_mem hm hs))
  | scope name items =>
    rw [Item.strings, List.forall_mem_cons] at h
    rw [Item.lines]
    exact .block (.append (by decide) h.1) (isUnbroken_linesOf items h.2)

/-- The lines of items are unbroken if their strings are, by recursion over what stands in them. -/
theorem isUnbroken_linesOf (items : List Item) (h : ∀ s ∈ stringsOf items, IsUnbroken s) :
    ∀ line ∈ linesOf items, IsUnbroken line := by
  cases items with
  | nil => exact List.forall_mem_nil _
  | cons item items =>
    rw [stringsOf, List.forall_mem_append] at h
    rw [linesOf, List.forall_mem_append]
    exact ⟨item.isUnbroken_lines h.1, isUnbroken_linesOf items h.2⟩

end

/-- Lines without line breaks are read back from the text of them at the margin. -/
theorem Layout.split_textAt_zero {lines : List String} (h : ∀ line ∈ lines, IsUnbroken line) :
    Text.split '\n' (textAt 0 lines) = lines.map String.toList ++ [[]] := by
  induction lines with
  | nil => rfl
  | cons line lines ih =>
    obtain ⟨hline, hlater⟩ := List.forall_mem_cons.1 h
    have htext : textAt 0 (line :: lines) = line.toList ++ '\n' :: textAt 0 lines := by
      simp [textAt, Blank.indent]
    rw [htext, Text.split_append_cons, Text.split_of_notMem hline, ih hlater]
    rfl

/-! ### Files -/

/-- The lines of items are those of each of them in turn. -/
theorem linesOf_eq_flatMap (items : List Item) : linesOf items = items.flatMap Item.lines := by
  induction items with
  | nil => rfl
  | cons item items ih => rw [linesOf, ih, List.flatMap_cons]

namespace GeneratedFile

/-- **The lines of a file are unbroken** if its strings are. -/
theorem isUnbroken_lines {file : GeneratedFile} (h : ∀ s ∈ file.strings, IsUnbroken s) :
    ∀ line ∈ file.lines, IsUnbroken line := by
  rw [strings, List.forall_mem_append] at h
  rw [lines, List.forall_mem_append, List.forall_mem_map]
  refine ⟨fun u hu ↦ ?_, isUnbroken_linesOf file.items h.2⟩
  exact (IsUnbroken.append (by decide) (h.1 u hu)).append (by decide)

/-- The pen that writes a file stands further in whenever it steps out. -/
theorem depth_pos_of_leave {file : GeneratedFile} {front later : List Stroke}
    (h : file.strokes = front ++ .leave :: later) : 0 < (front.foldl Pen.draw .start).depth := by
  have hdrawn := file.foldlM_strokes
  rw [h, List.foldlM_append] at hdrawn
  obtain ⟨pen, hfront, hbehind⟩ := Option.bind_eq_some_iff.1 hdrawn
  obtain ⟨next, hnext, -⟩ := Option.bind_eq_some_iff.1 hbehind
  rw [Pen.draw?, Option.ite_none_left_eq_some] at hnext
  rw [Pen.foldl_eq_of_foldlM hfront]
  exact Nat.pos_of_ne_zero fun hzero ↦ hnext.1 ⟨rfl, hzero⟩

/-- **Rendering is compositional.** Where no string has a line break in it, the text of a file comes
apart at its line breaks, nothing standing behind the last, into the lines of the file: those of its
imports and then those of its declarations in their order. Those of a namespace are its header and,
in braces, those of what it holds, four spaces further in; those of a type are its header and, in
braces and four spaces further in, one for each of its methods. In all, a line is indented by four
spaces for each block around it. The pen that writes the file never steps out at the margin, and is
back there at the end. -/
theorem split_render {file : GeneratedFile} (h : ∀ s ∈ file.strings, IsUnbroken s) :
    Text.split '\n' file.render.toList = file.lines.map String.toList ++ [[]] ∧
    (file.lines = file.usings.map (fun u ↦ "using " ++ u ++ ";") ++
        file.items.flatMap Item.lines ∧
      (∀ name items, (Item.scope name items).lines =
        ("namespace " ++ name) :: "\x7b" :: (items.flatMap Item.lines).map ("    " ++ ·) ++
          ["\x7d"]) ∧
      ∀ t, (Item.type t).lines =
        t.header :: "\x7b" :: t.methods.map (fun m ↦ "    " ++ m.line) ++ ["\x7d"]) ∧
    file.lines = file.rows.map (fun row ↦
      String.ofList (List.replicate (4 * row.depth) ' ') ++ row.text) ∧
    (∀ front later, file.strokes = front ++ .leave :: later →
      0 < (front.foldl Pen.draw .start).depth) ∧
    (file.strokes.foldl Pen.draw .start).depth = 0 := by
  have hsplit : Text.split '\n' file.render.toList = file.lines.map String.toList ++ [[]] := by
    rw [toList_render, Layout.split_textAt_zero (isUnbroken_lines h)]
  have hscope (name : String) (items : List Item) : (Item.scope name items).lines =
      ("namespace " ++ name) :: "\x7b" :: (items.flatMap Item.lines).map ("    " ++ ·) ++
        ["\x7d"] := by
    rw [Item.lines, linesOf_eq_flatMap]
    rfl
  have htype (t : TypeBlock) : (Item.type t).lines =
      t.header :: "\x7b" :: t.methods.map (fun m ↦ "    " ++ m.line) ++ ["\x7d"] := by
    rw [Item.lines, Layout.block, List.map_map]
    rfl
  have hend : (file.strokes.foldl Pen.draw .start).depth = 0 := by
    rw [Pen.foldl_eq_of_foldlM file.foldlM_strokes, Pen.write_depth, Pen.start]
  refine ⟨hsplit, ⟨?_, hscope, htype⟩, file.map_line_rows.symm, ?_, hend⟩
  · rw [lines, linesOf_eq_flatMap]
  · exact fun front later ↦ depth_pos_of_leave

/-- Two methods of a type with type parameters, inside two namespaces. -/
def nestedSample : GeneratedFile where
  usings := ["B"]
  items :=
    let accept (expression : Option String) : Method :=
      ⟨["public"], "T", "Accept", ["T"], [⟨"IVisitor<T>", "visitor"⟩], expression⟩
    let box : TypeBlock := ⟨["public", "partial"], "class", "Box", ["K", "V"],
      [accept (some "visitor.Visit(this)"), accept none]⟩
    [.scope "A" [.scope "C" [.type box]], .type ⟨[], "interface", "I", [], []⟩]

theorem split_render_nestedSample :
    (∀ s ∈ nestedSample.strings, IsUnbroken s) ∧
    Text.split '\n' nestedSample.render.toList = [
      "using B;",
      "namespace A",
      "\x7b",
      "    namespace C",
      "    \x7b",
      "        public partial class Box<K, V>",
      "        \x7b",
      "            public T Accept<T>(IVisitor<T> visitor) => visitor.Visit(this);",
      "            public T Accept<T>(IVisitor<T> visitor);",
      "        \x7d",
      "    \x7d",
      "\x7d",
      "interface I",
      "\x7b",
      "\x7d"].map String.toList ++ [[]] ∧
    nestedSample.rows.map (·.depth) = [0, 0, 0, 1, 1, 2, 2, 3, 3, 2, 1, 0, 0, 0, 0] ∧
    (nestedSample.strokes.foldl Pen.draw .start).depth = 0 := by
  have hstrings : ∀ s ∈ nestedSample.strings, IsUnbroken s := by decide
  obtain ⟨hsplit, -, -, -, hend⟩ := split_render hstrings
  exact ⟨hstrings, hsplit.trans (congrArg (List.map String.toList · ++ [[]]) (by decide)), rfl,
    hend⟩

end GeneratedFile

end DoubleDispatch
