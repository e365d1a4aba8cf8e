import DoubleDispatch.Proofs.Binding.SymbolIds
import DoubleDispatch.Proofs.Binding.TypeBinding

/-!
# Type arguments

The arguments of a constructed type are names, with arguments of their own or not, tuples, nullable
types and arrays, nested to any depth (`IsArgumentText`). Their number is found by counting commas,
and the commas of an argument that stand in angle brackets or parentheses are told from those
between arguments. Those in the ranks of an argument that is an array are not
(`Reference.argumentCount?_of_isArgumentText`), and a double colon anywhere in the arguments is
taken for the end of a qualifier, so that the whole name means nothing
(`Reference.parse?_eq_none_of_doubleColon`). All other arguments are counted right
(`DeclarationTable.baseType?_of_isArgumentText`).
-/

namespace DoubleDispatch

/-! ### The texts of type arguments -/

/-- What a part of a list of type arguments is. -/
inductive ArgumentPart where
  | word
  /-- An identifier with type arguments behind it or without. -/
  | segment
  | name
  | type
  /-- A type in a tuple, with a name behind it or without. -/
  | element
  | elements (number : Nat)
  | arguments (number : Nat)
deriving DecidableEq, Repr

/-- The number of parts with commas between them. -/
def ArgumentPart.number : ArgumentPart → Nat
  | elements number | arguments number => number
  | _ => 1

/-- What stands between the brackets of an array type: a comma for each dimension but one. -/
def IsRank (s : List Char) : Prop := ∀ c ∈ s, c = ',' ∨ Text.isBlank c

/-- The text is a part of this kind. The number tells the commas in the ranks of those arrays that
stand in no other brackets. -/
inductive IsArgumentText : ArgumentPart → Nat → List Char → Prop
  | identifier {s : List Char} (h : Text.isIdentifier s) : IsArgumentText .word 0 s
  | verbatim {s : List Char} (h : Text.isIdentifier s) : IsArgumentText .word 0 ('@' :: s)
  | blanks {part : ArgumentPart} {ranks : Nat} {before s behind : List Char}
      (hbefore : ∀ c ∈ before, Text.isBlank c) (h : IsArgumentText part ranks s)
      (hbehind : ∀ c ∈ behind, Text.isBlank c) : IsArgumentText part ranks (before ++ s ++ behind)
  | plain {s : List Char} (h : IsArgumentText .word 0 s) : IsArgumentText .segment 0 s
  | generic {s args : List Char} {number ranks : Nat} (h : IsArgumentText .word 0 s)
      (hargs : IsArgumentText (.arguments number) ranks args) :
    IsArgumentText .segment 0 (s ++ '<' :: (args ++ ['>']))
  | first {s : List Char} (h : IsArgumentText .segment 0 s) : IsArgumentText .name 0 s
  | dotted {s t : List Char} (h : IsArgumentText .name 0 s) (ht : IsArgumentText .segment 0 t) :
    IsArgumentText .name 0 (s ++ '.' :: t)
  /-- A name behind `global` or an alias. -/
  | qualified {s t : List Char} (h : IsArgumentText .word 0 s) (ht : IsArgumentText .segment 0 t) :
    IsArgumentText .name 0 (s ++ ':' :: ':' :: t)
  | named {s : List Char} (h : IsArgumentText .name 0 s) : IsArgumentText .type 0 s
  | tuple {s : List Char} {number ranks : Nat} (hnumber : 2 ≤ number)
      (h : IsArgumentText (.elements number) ranks s) :
    IsArgumentText .type 0 ('(' :: (s ++ [')']))
  | nullable {s : List Char} {ranks : Nat} (h : IsArgumentText .type ranks s) :
    IsArgumentText .type ranks (s ++ ['?'])
  | array {s rank : List Char} {ranks : Nat} (h : IsArgumentText .type ranks s)
      (hrank : IsRank rank) :
    IsArgumentText .type (ranks + rank.count ',') (s ++ '[' :: (rank ++ [']']))
  | element {s : List Char} {ranks : Nat} (h : IsArgumentText .type ranks s) :
    IsArgumentText .element ranks s
  | namedElement {s t : List Char} {ranks : Nat} (h : IsArgumentText .type ranks s)
      (ht : IsArgumentText .word 0 t) : IsArgumentText .element ranks (s ++ t)
  | oneElement {s : List Char} {ranks : Nat} (h : IsArgumentText .element ranks s) :
    IsArgumentText (.elements 1) ranks s
  | moreElements {s t : List Char} {number ranks ranks' : Nat}
      (h : IsArgumentText (.elements number) ranks s) (ht : IsArgumentText .element ranks' t) :
    IsArgumentText (.elements (number + 1)) (ranks + ranks') (s ++ ',' :: t)
  | oneArgument {s : List Char} {ranks : Nat} (h : IsArgumentText .type ranks s) :
    IsArgumentText (.arguments 1) ranks s
  | moreArguments {s t : List Char} {number ranks ranks' : Nat}
      (h : IsArgumentText (.arguments number) ranks s) (ht : IsArgumentText .type ranks' t) :
    IsArgumentText (.arguments (number + 1)) (ranks + ranks') (s ++ ',' :: t)

namespace IsArgumentText

variable {part : ArgumentPart} {ranks : Nat} {s : List Char}

theorem ofIdentifier (h : Text.isIdentifier s) : IsArgumentText .type 0 s :=
  .named (.first (.plain (.identifier h)))

theorem blank {c : Char} (hc : Text.isBlank c) (h : IsArgumentText part ranks s) :
    IsArgumentText part ranks (c :: s) := by
  simpa using @blanks part ranks [c] s [] (by simpa using hc) h nofun

/-- There is at least one part. -/
theorem number_pos (h : IsArgumentText part ranks s) : 0 < part.number := by
  induction h with
  | blanks _ _ _ ih => exact ih
  | _ => exact Nat.succ_pos _

end IsArgumentText

/-! ### Divided texts -/

namespace Text

variable {mark : List Char}

/-- A text that holds the mark is divided at its first one, however the text goes on. -/
theorem exists_splitOnce?_append {s : List Char} (h : mark <:+: s) :
    ∃ before behind, s = before ++ mark ++ behind ∧
      ∀ t, splitOnce? mark (s ++ t) = some (before, behind ++ t) := by
  induction s with
  | nil =>
    obtain rfl := List.eq_nil_of_infix_nil h
    refine ⟨[], [], rfl, fun t ↦ ?_⟩
    cases t <;> rfl
  | cons c s ih =>
    by_cases hprefix : mark <+: c :: s
    · obtain ⟨behind, hbehind⟩ := hprefix
      refine ⟨[], behind, by simp [hbehind], fun t ↦ ?_⟩
      have hprefix' : mark.isPrefixOf (c :: (s ++ t)) := by
        rw [List.isPrefixOf_iff_prefix, ← List.cons_append, ← hbehind, List.append_assoc]
        exact List.prefix_append mark _
      rw [List.cons_append, splitOnce?, if_pos hprefix', ← List.cons_append, ← hbehind,
        List.append_assoc, List.drop_left]
    · have hs : mark <:+: s := (List.infix_cons_iff.1 h).resolve_left hprefix
      obtain ⟨before, behind, heq, hsplit⟩ := ih hs
      refine ⟨c :: before, behind, by simp [heq], fun t ↦ ?_⟩
      -- The mark fits into the text, so what follows cannot complete one that begins here.
      have hprefix' : ¬mark.isPrefixOf (c :: (s ++ t)) = true := fun hp ↦
        hprefix (List.prefix_of_prefix_length_le (List.isPrefixOf_iff_prefix.1 hp)
          (List.prefix_append (c :: s) t) (hs.length_le.trans (Nat.le_succ _)))
      rw [List.cons_append, splitOnce?, if_neg hprefix', hsplit]
      rfl

/-- What lacks the first character of the mark stands in front of the place of division. -/
theorem splitOnce?_append_left {c : Char} {s t before behind : List Char} (hs : c ∉ s)
    (h : splitOnce? (c :: mark) t = some (before, behind)) :
    splitOnce? (c :: mark) (s ++ t) = some (s ++ before, behind) := by
  induction s with
  | nil => exact h
  | cons d s ih =>
    rw [List.mem_cons, not_or] at hs
    rw [List.cons_append, splitOnce?, List.isPrefixOf_cons_cons, beq_eq_false_iff_ne.2 hs.1,
      ih hs.2]
    rfl

/-- A character that is no mark stands in one of the parts. -/
theorem exists_mem_split {sep c : Char} {s : List Char} (hc : c ∈ s) (hsep : c ≠ sep) :
    ∃ part ∈ split sep s, c ∈ part := by
  induction s with
  | nil => cases hc
  | cons d s ih =>
    rw [split]
    split
    · next hd =>
      obtain ⟨part, hpart, hmem⟩ := ih ((List.mem_cons.1 hc).resolve_left fun h ↦ hsep (h.trans hd))
      exact ⟨part, List.mem_cons_of_mem _ hpart, hmem⟩
    · rcases List.mem_cons.1 hc with rfl | hc
      · split <;> exact ⟨_, List.mem_cons_self, List.mem_cons_self⟩
      · obtain ⟨part, hpart, hmem⟩ := ih hc
        split
        · next first later hsplit =>
          rw [hsplit] at hpart
          rcases List.mem_cons.1 hpart with rfl | hpart
          · exact ⟨d :: part, List.mem_cons_self, List.mem_cons_of_mem _ hmem⟩
          · exact ⟨part, List.mem_cons_of_mem _ hpart, hmem⟩
        · next hsplit =>
          rw [hsplit] at hpart
          cases hpart

theorem mem_dropWhile {α : Type} {p : α → Bool} {a : α} {l : List α} (ha : a ∈ l)
    (hp : p a = false) : a ∈ l.dropWhile p := by
  have hparts : a ∈ l.takeWhile p ++ l.dropWhile p := by rwa [List.takeWhile_append_dropWhile]
  refine (List.mem_append.1 hparts).resolve_left fun htaken ↦ ?_
  rw [List.mem_takeWhile_imp htaken] at hp
  cases hp

theorem mem_trim {c : Char} {s : List Char} (hc : c ∈ s) (hblank : isBlank c = false) :
    c ∈ trim s := by
  rw [trim, trimEnd, List.mem_reverse]
  exact mem_dropWhile (List.mem_reverse.2 (mem_dropWhile hc hblank)) hblank

end Text

namespace Reference

/-! ### Counted commas -/

/-- The characters that the count looks at. -/
def countedMarks : List Char := ['<', '(', '>', ')', ',']

theorem argumentCount?_of_notMem {c : Char} (hc : c ∉ countedMarks) (depth count : Nat)
    (s : List Char) : argumentCount? depth count (c :: s) = argumentCount? depth count s := by
  simp only [countedMarks, List.mem_cons, List.not_mem_nil, or_false, not_or] at hc
  simp [argumentCount?, hc]

theorem notMem_countedMarks_of_isBlank {c : Char} (h : Text.isBlank c) : c ∉ countedMarks := by
  intro hmem
  have hmarks : countedMarks.all (fun d ↦ !Text.isBlank d) := by decide +kernel
  simpa [h] using List.all_eq_true.1 hmarks c hmem

theorem notMem_countedMarks_of_isIdentifier {s : List Char} (h : Text.isIdentifier s) :
    ∀ c ∈ s, c ∉ countedMarks := by
  intro c hc hmem
  have hmarks : countedMarks.all (fun d ↦ !Text.continuesIdentifier d) := by decide +kernel
  simpa [Text.continuesIdentifier_of_isIdentifier h c hc] using List.all_eq_true.1 hmarks c hmem

/-- The count goes on behind the text with this many commas more if it stands outside all brackets,
and as before the text if it stands inside some. -/
def AddsCommas (number : Nat) (s : List Char) : Prop :=
  ∀ depth count t, argumentCount? depth count (s ++ t) =
    argumentCount? depth (count + if depth = 0 then number else 0) t

namespace AddsCommas

variable {number number' : Nat} {s t : List Char}

theorem append (h : AddsCommas number s) (ht : AddsCommas number' t) :
    AddsCommas (number + number') (s ++ t) := by
  intro depth count u
  rw [List.append_assoc, h, ht]
  congr 1
  split <;> omega

theorem of_notMem (h : ∀ c ∈ s, c ∉ countedMarks) : AddsCommas 0 s := by
  intro depth count t
  rw [ite_self, Nat.add_zero]
  induction s with
  | nil => rfl
  | cons c s ih =>
    rw [List.cons_append, argumentCount?_of_notMem (h c List.mem_cons_self),
      ih fun d hd ↦ h d (List.mem_cons_of_mem _ hd)]

theorem blanks (h : ∀ c ∈ s, Text.isBlank c) : AddsCommas 0 s :=
  of_notMem fun c hc ↦ notMem_countedMarks_of_isBlank (h c hc)

theorem comma : AddsCommas 1 [','] := by
  intro depth count t
  by_cases hdepth : depth = 0
  · subst hdepth
    rfl
  · simp [argumentCount?, hdepth]

theorem rank (h : IsRank s) : AddsCommas (s.count ',') s := by
  induction s with
  | nil => exact blanks (by simp)
  | cons c s ih =>
    have ih := ih fun d hd ↦ h d (List.mem_cons_of_mem _ hd)
    rcases h c List.mem_cons_self with rfl | hc
    · rw [List.count_cons_self, Nat.add_comm]
      exact comma.append ih
    · have hne : c ≠ ',' := fun hcomma ↦ absurd (hcomma ▸ hc) (by decide)
      rw [List.count_cons_of_ne hne, ← Nat.zero_add (s.count ',')]
      exact (blanks (s := [c]) (by simpa using hc)).append ih

/-- In brackets no comma is counted. -/
theorem enclosed (h : AddsCommas number s) {opening closing : Char}
    (hopening : opening = '<' ∨ opening = '(') (hclosing : closing = '>' ∨ closing = ')') :
    AddsCommas 0 (opening :: (s ++ [closing])) := by
  intro depth count t
  have hopen (u : List Char) :
      argumentCount? depth count (opening :: u) = argumentCount? (depth + 1) count u := by
    rcases hopening with rfl | rfl <;> rfl
  have hclose : argumentCount? (depth + 1) count (closing :: t) = argumentCount? depth count t := by
    rcases hclosing with rfl | rfl <;> rfl
  rw [ite_self, List.cons_append, List.append_assoc, hopen, h, if_neg (Nat.succ_ne_zero depth)]
  exact hclose

/-- **The commas of a part.** Those between its parts are counted, and with them those in the
ranks of arrays. -/
theorem of_isArgumentText {part : ArgumentPart} {ranks : Nat} (h : IsArgumentText part ranks s) :
    AddsCommas (part.number - 1 + ranks) s := by
  induction h with
  | identifier h => exact of_notMem (notMem_countedMarks_of_isIdentifier h)
  | verbatim h =>
    exact of_notMem (List.forall_mem_cons.2 ⟨by decide, notMem_countedMarks_of_isIdentifier h⟩)
  | blanks hbefore _ hbehind ih => simpa using ((blanks hbefore).append ih).append (blanks hbehind)
  | plain _ ih | first _ ih | named _ ih | element _ ih | oneElement _ ih | oneArgument _ ih =>
    exact ih
  | generic _ _ ih ihargs => exact ih.append (ihargs.enclosed (.inl rfl) (.inl rfl))
  | dotted _ _ ih iht =>
    have hdot : AddsCommas 0 ['.'] := of_notMem (by simp [countedMarks])
    exact ih.append (hdot.append iht)
  | qualified _ _ ih iht =>
    have hcolons : AddsCommas 0 [':', ':'] := of_notMem (by simp [countedMarks])
    exact ih.append (hcolons.append iht)
  | tuple _ _ ih => exact ih.enclosed (.inr rfl) (.inr rfl)
  | nullable _ ih => exact ih.append (of_notMem (by simp [countedMarks]))
  | @array s rank ranks _ hrank ih =>
    have hopen : AddsCommas 0 ['['] := of_notMem (by simp [countedMarks])
    have hclose : AddsCommas 0 [']'] := of_notMem (by simp [countedMarks])
    have hbrackets := (hopen.append (AddsCommas.rank hrank)).append hclose
    simpa [ArgumentPart.number] using ih.append hbrackets
  | namedElement _ _ ih iht => exact ih.append iht
  | @moreElements s t number ranks ranks' h _ ih iht
  | @moreArguments s t number ranks ranks' h _ ih iht =>
    have hpos : 0 < number := h.number_pos
    have hsum : number + 1 - 1 + (ranks + ranks') = number - 1 + ranks + (1 + ranks') := by omega
    have hparts := ih.append (comma.append iht)
    simp only [ArgumentPart.number, Nat.sub_self, Nat.zero_add, List.singleton_append]
      at hparts ⊢
    rwa [hsum]

end AddsCommas

/-- Type arguments are counted with the commas in the ranks of arrays among them. -/
theorem argumentCount?_of_isArgumentText {number ranks : Nat} {s : List Char}
    (h : IsArgumentText (.arguments number) ranks s) :
    argumentCount? 0 1 s = some (number + ranks) := by
  have hpos : 0 < number := h.number_pos
  have hcommas := AddsCommas.of_isArgumentText h 0 1 []
  rw [List.append_nil, if_pos rfl] at hcommas
  rw [hcommas, argumentCount?, if_pos rfl, ArgumentPart.number]
  congr 1
  omega

/-! ### A double colon in the arguments -/

/-- The count of a text goes on with that of any text behind it. -/
theorem exists_argumentCount?_suffix {s t : List Char} {depth count number : Nat}
    (h : argumentCount? depth count (s ++ t) = some number) :
    ∃ depth' count', argumentCount? depth' count' t = some number := by
  induction s generalizing depth count with
  | nil => exact ⟨depth, count, h⟩
  | cons c s ih =>
    rw [List.cons_append, argumentCount?] at h
    split at h
    · exact ih h
    · split at h
      · split at h
        · cases h
        · exact ih h
      · split at h <;> exact ih h

/-- A text that closes brackets opened before it is no list of arguments on its own. -/
theorem argumentCount?_eq_none_of_deeper {s : List Char} {depth more count count' number : Nat}
    (h : argumentCount? (depth + more + 1) count s = some number) :
    argumentCount? depth count' s = none := by
  induction s generalizing depth count count' with
  | nil => cases h
  | cons c s ih =>
    rw [argumentCount?] at h ⊢
    split at h
    · next hopen =>
      rw [if_pos hopen]
      have hdeeper : argumentCount? (depth + 1 + more + 1) count s = some number := by
        rwa [Nat.add_right_comm depth 1 more]
      exact ih hdeeper
    · next hopen =>
      rw [if_neg hopen]
      split at h
      · next hclose =>
        rw [if_pos hclose]
        split
        · rfl
        · next hdepth =>
          rw [if_neg (Nat.succ_ne_zero _)] at h
          have hone : depth - 1 + more + 1 = depth + more + 1 - 1 := by omega
          have hdeeper : argumentCount? (depth - 1 + more + 1) count s = some number := by
            rwa [hone]
          exact ih hdeeper
      · next hclose =>
        rw [if_neg hclose]
        split at h <;> split <;> exact ih h

/-- A text with an angle bracket in it is no dotted name. -/
theorem all_isIdentifier_eq_false {s : List Char} (h : '>' ∈ s) :
    ((Text.split '.' s).map Text.trim).all Text.isIdentifier = false := by
  have hdot : '>' ≠ '.' := by decide
  obtain ⟨part, hpart, hmem⟩ := Text.exists_mem_split h hdot
  rw [List.all_eq_false]
  refine ⟨Text.trim part, List.mem_map_of_mem hpart, fun hidentifier ↦ ?_⟩
  exact Text.notMem_of_isIdentifier hidentifier (by decide) (Text.mem_trim hmem (by decide))

/-- The end of a list of arguments with the bracket behind it is no name. -/
theorem parse?_eq_none_of_suffix {text : String} {s : List Char} {depth count number : Nat}
    (hname : (qualifierAndName (withoutMark text.toList)).2 = s ++ ['>'])
    (hcount : argumentCount? depth count s = some number) : parse? text = none := by
  rw [parse?]
  dsimp only
  rw [hname]
  by_cases hopen : '<' ∈ s
  · obtain ⟨before, behind, rfl, hsplit⟩ := Text.exists_splitOnce?_append
      ((List.singleton_infix_iff _ _).2 hopen)
    have hsuffix : Text.stripSuffix? '>' (behind ++ ['>']) = some behind := by
      simp [Text.stripSuffix?]
    -- What follows the first bracket closes it, but here nothing is open.
    have hnone : argumentCount? 0 1 behind = none := by
      rw [List.append_assoc] at hcount
      obtain ⟨depth', count', hbehind⟩ := exists_argumentCount?_suffix hcount
      have hdeeper : argumentCount? (0 + depth' + 1) count' behind = some number := by
        rwa [Nat.zero_add]
      exact argumentCount?_eq_none_of_deeper hdeeper
    rw [nameAndArity?, hsplit]
    dsimp only
    rw [hsuffix]
    dsimp only
    rw [hnone]
    rfl
  · have hnone : Text.splitOnce? ['<'] (s ++ ['>']) = none :=
      Text.splitOnce?_eq_none (by simpa using hopen)
    rw [nameAndArity?, hnone]
    dsimp only
    rw [if_neg (by simp [all_isIdentifier_eq_false (s := s ++ ['>']) (by simp)])]

variable {segments : List String} {arguments : String} {number ranks : Nat}

theorem colon_notMem_opening (h : ∀ segment ∈ segments, Text.isIdentifier segment.toList) :
    ':' ∉ (".".intercalate segments).toList ++ ['<'] := by
  simpa using notMem_intercalate_dot h (by decide) (by decide)

/-- **A double colon among the type arguments makes the name unreadable.** -/
theorem parse?_eq_none_of_doubleColon (hne : segments ≠ [])
    (h : ∀ segment ∈ segments, Text.isIdentifier segment.toList)
    (harguments : IsArgumentText (.arguments number) ranks arguments.toList)
    (hcolon : [':', ':'] <:+: arguments.toList) :
    parse? (".".intercalate segments ++ "<" ++ arguments ++ ">") = none := by
  obtain ⟨before, behind, heq, hsplit⟩ := Text.exists_splitOnce?_append hcolon
  have hcount := argumentCount?_of_isArgumentText harguments
  rw [heq] at hcount
  obtain ⟨depth, count, hbehind⟩ := exists_argumentCount?_suffix hcount
  refine parse?_eq_none_of_suffix ?_ hbehind
  rw [withoutMark_generic hne h, List.append_cons, qualifierAndName,
    Text.splitOnce?_append_left (colon_notMem_opening h) (hsplit ['>'])]

theorem doubleColon_infix_of_generic
    (h : ∀ segment ∈ segments, Text.isIdentifier segment.toList)
    (hcolon : [':', ':'] <:+: (".".intercalate segments ++ "<" ++ arguments ++ ">").toList) :
    [':', ':'] <:+: arguments.toList := by
  have hright {s t : List Char} (hs : ':' ∉ s) (hst : [':', ':'] <:+: s ++ t) :
      [':', ':'] <:+: t := by
    induction s with
    | nil => exact hst
    | cons c s ih =>
      rw [List.mem_cons, not_or] at hs
      refine ih hs.2 ((List.infix_cons_iff.1 hst).resolve_left fun hprefix ↦ ?_)
      exact hs.1 (List.cons_prefix_cons.1 hprefix).1
  rw [toList_generic, List.append_cons] at hcolon
  have hends := List.infix_concat_iff.1 (hright (colon_notMem_opening h) hcolon)
  refine hends.resolve_left fun hsuffix ↦ ?_
  simpa using hsuffix.getLast (by simp)

/-- Other type arguments are counted, with the commas in the ranks of arrays among them. -/
theorem isTypeName_of_isArgumentText (hne : segments ≠ [])
    (h : ∀ segment ∈ segments, Text.isIdentifier segment.toList)
    (harguments : IsArgumentText (.arguments number) ranks arguments.toList)
    (hcolon : ¬[':', ':'] <:+: arguments.toList) :
    IsTypeName (".".intercalate segments ++ "<" ++ arguments ++ ">") segments (number + ranks) :=
  .generic hne h (argumentCount?_of_isArgumentText harguments)
    fun hinfix ↦ hcolon (doubleColon_infix_of_generic h hinfix)

end Reference

/-! ### The number of type parameters -/

namespace Namespace

/-- A name in a namespace within another one stands in a namespace. -/
theorem exists_qualify_qualify (outer inner : Namespace) :
    ∃ ns : Namespace, ∀ name, outer.qualify (inner.qualify name) = ns.qualify name := by
  cases outer with
  | global => exact ⟨inner, fun _ ↦ rfl⟩
  | named outer =>
    cases inner with
    | global => exact ⟨named outer, fun _ ↦ rfl⟩
    | named inner =>
      exact ⟨named (outer ++ "." ++ inner), fun name ↦ by simp [qualify, String.append_assoc]⟩

end Namespace

/-- The last of the segments is the name of a type, and those before it are its namespace. -/
theorem Reference.exists_joined_eq {segments : List String} (arity : Nat) (hne : segments ≠ []) :
    ∃ (ns : Namespace) (name : String), name ∈ segments ∧
      joined segments arity = ns.qualify (arityName name arity) := by
  induction segments with
  | nil => exact absurd rfl hne
  | cons segment segments ih =>
    cases segments with
    | nil => exact ⟨.global, segment, List.mem_cons_self, rfl⟩
    | cons next later =>
      obtain ⟨ns, name, hname, hjoined⟩ := ih (List.cons_ne_nil _ _)
      obtain ⟨ns', hns'⟩ := Namespace.exists_qualify_qualify (.named segment) ns
      refine ⟨ns', name, List.mem_cons_of_mem _ hname, ?_⟩
      have hcons : joined (segment :: next :: later) arity =
          (Namespace.named segment).qualify (joined (next :: later) arity) := by
        rw [joined, joined, String.intercalate_cons_cons]
        unfold arityName
        split <;> simp [Namespace.qualify, String.append_assoc]
      rw [hcons, hjoined, hns']

namespace DeclarationTable

section

variable {table : DeclarationTable} {first : String} {rest : List String} {arity : Nat}
  {id : SymbolId}

/-- A type that a level gives a name with type arguments has that number of type parameters. -/
theorem exists_ofParts_of_decides_generic {level : Level} (harity : arity ≠ 0)
    (hsegments : ∀ segment ∈ first :: rest, Text.isIdentifier segment.toList)
    (h : level.Decides table first rest arity (some id)) :
    ∃ (ns : Namespace) (name : String), Text.isIdentifier name.toList ∧
      id = .ofParts ns name arity := by
  have hqualified (outer : Namespace) {segments : List String} (hne : segments ≠ [])
      (hsub : segments ⊆ first :: rest) :
      ∃ (ns : Namespace) (name : String), Text.isIdentifier name.toList ∧
        ⟨outer.qualify (Reference.joined segments arity)⟩ = SymbolId.ofParts ns name arity := by
    obtain ⟨ns, name, hname, hjoined⟩ := Reference.exists_joined_eq arity hne
    obtain ⟨ns', hns'⟩ := outer.exists_qualify_qualify ns
    exact ⟨ns', name, hsegments name (hsub hname), by rw [hjoined, hns', SymbolId.ofParts]⟩
  cases h with
  | declared => exact hqualified level.ns (List.cons_ne_nil _ _) (List.Subset.refl _)
  | usings _ h =>
    cases h with
    | liveAlias => exact absurd rfl harity
    | @aliasMember target rest _ _ hrest =>
      exact hqualified (.named target) hrest (List.subset_cons_self _ _)
    | imported _ h =>
      obtain ⟨-, u, -, -, htext⟩ := h
      obtain ⟨ns, name, hname, hid⟩ :=
        hqualified (.named u.target) (List.cons_ne_nil first []) (List.Subset.refl _)
      exact ⟨ns, name, hname, (congrArg SymbolId.mk htext).trans hid⟩

end

variable {sources : List (String × String)} {trees : List SourceTree} {number : Nat}
  {d : TypeDeclaration} {levels : List Level} {base : BaseEntry} {segments : List String}
  {arguments : String} {count ranks : Nat}

/-- The id of a declared type is made from its name and the number of its type parameters. -/
theorem id_eq_of_parseAll (h : parseAll sources = .ok trees) {e : PlacedDeclaration}
    (he : e ∈ (ofTrees trees).entries) : Text.isIdentifier e.symbol.name.toList ∧
      e.symbol.id = .ofParts e.symbol.ns e.symbol.name e.symbol.arity := by
  obtain ⟨number, tree, htree, hplaced⟩ := mem_entries_ofTrees.1 he
  have hmem : e.declaration ∈ tree.types := by
    rw [SourceTree.types, SourceFile.types, ← map_declaration_placedOf number
      [⟨.global, Level.localUsings tree.file.usings ++ (ofTrees trees).globalUsings⟩]]
    exact List.mem_map_of_mem hplaced
  rw [(mem_placedOf hplaced).2]
  exact ⟨isIdentifier_name_of_parseAll h tree (List.mem_of_getElem? htree) _ hmem, rfl⟩

/-- **A name with type arguments means a type with that number of type parameters**, unless one of
the arguments is an array with more than one dimension or holds a double colon. The dimensions of
such arrays but one are counted as arguments too, and with a double colon the name means nothing. -/
theorem baseType?_of_isArgumentText (h : parseAll sources = .ok trees)
    (hd : HasScope trees number d levels) (hne : segments ≠ [])
    (hsegments : ∀ segment ∈ segments, Text.isIdentifier segment.toList)
    (harguments : IsArgumentText (.arguments count) ranks arguments.toList)
    (hbase : base.text = ".".intercalate segments ++ "<" ++ arguments ++ ">") :
    let table := ofTrees trees
    let meaning := table.model.baseType? number d base
    ([':', ':'] <:+: arguments.toList → Reference.parse? base.text = none ∧ meaning = none) ∧
    (¬[':', ':'] <:+: arguments.toList →
      Reference.parse? base.text = some ⟨.plain, segments, count + ranks⟩ ∧
      meaning = table.resolveReference? levels ⟨.plain, segments, count + ranks⟩) ∧
    ∀ id, meaning = some id → table.Declares id ∧
      ∀ e ∈ table.entries, e.symbol.id = id → e.symbol.arity = count + ranks := by
  intro table meaning
  obtain ⟨first, rest, rfl⟩ := List.exists_cons_of_ne_nil hne
  have hcount : count + ranks ≠ 0 := by
    have hpos : 0 < count := harguments.number_pos
    omega
  by_cases hcolon : [':', ':'] <:+: arguments.toList
  · have hread : Reference.parse? base.text = none :=
      hbase ▸ Reference.parse?_eq_none_of_doubleColon hne hsegments harguments hcolon
    have hmeaning : meaning = none := by
      show table.model.baseType? number d base = none
      rw [baseType?_model, resolve?, hread]
    refine ⟨fun _ ↦ ⟨hread, hmeaning⟩, fun hnot ↦ absurd hcolon hnot, fun id hid ↦ ?_⟩
    rw [hmeaning] at hid
    cases hid
  · have hname : Reference.IsTypeName base.text (first :: rest) (count + ranks) :=
      hbase ▸ Reference.isTypeName_of_isArgumentText hne hsegments harguments hcolon
    have hmeaning : meaning =
        table.resolveReference? levels ⟨.plain, first :: rest, count + ranks⟩ := by
      rw [resolveReference?, if_neg Qualifier.noConfusion]
      exact baseType?_eq_first? h hd hname
    refine ⟨fun hinfix ↦ absurd hinfix hcolon,
      fun _ ↦ ⟨Reference.parse?_of_isTypeName hname, hmeaning⟩, fun id hid ↦ ?_⟩
    -- The answer is what one of the levels gives the name.
    rw [hmeaning, resolveReference?, if_neg Qualifier.noConfusion] at hid
    obtain ⟨inner, level, outer, -, -, hfound⟩ := Verdict.first?_map_eq_some_iff.1 hid
    have hdecides : level.Decides table first rest (count + ranks) (some id) := decides_iff.2 hfound
    refine ⟨hdecides.declares, fun e he heq ↦ ?_⟩
    obtain ⟨ns, name, hname, rfl⟩ :=
      exists_ofParts_of_decides_generic hcount hsegments hdecides
    obtain ⟨hidentifier, hid⟩ := id_eq_of_parseAll h he
    exact ((SymbolId.ofParts_inj hidentifier hname).1 (hid.symm.trans heq)).2.2

/-- Two types with one name, and a type with base entries that differ in their type arguments. -/
def argumentSample : List (String × String) :=
  [("Names.cs", "interface N<T>; interface N<T, U>; " ++
    "class C : N<(int, A<B, C>)[]>, N<int[,]>, N<global::X>;")]

/-- The array of tuples is one argument. -/
theorem isArgumentText_tuples :
    IsArgumentText (.arguments 1) 0 "(int, A<B, C>)[]".toList := by
  have harguments : IsArgumentText (.arguments 2) 0 "B, C".toList :=
    .moreArguments (.oneArgument (.ofIdentifier (s := ['B']) (by decide)))
      (.blank (by decide) (.ofIdentifier (s := ['C']) (by decide)))
  have hgeneric : IsArgumentText .type 0 "A<B, C>".toList :=
    .named (.first (.generic (s := ['A']) (.identifier (by decide)) harguments))
  have helements : IsArgumentText (.elements 2) 0 "int, A<B, C>".toList :=
    .moreElements (.oneElement (.element (.ofIdentifier (s := "int".toList) (by decide))))
      (.element (.blank (by decide) hgeneric))
  exact .oneArgument (@IsArgumentText.array _ [] _ (.tuple (by decide) helements) nofun)

theorem isArgumentText_rank : IsArgumentText (.arguments 1) 1 "int[,]".toList :=
  .oneArgument (@IsArgumentText.array _ [','] _ (.ofIdentifier (s := "int".toList) (by decide))
    (by simp [IsRank]))

theorem isArgumentText_qualified : IsArgumentText (.arguments 1) 0 "global::X".toList :=
  .oneArgument (.named (.qualified (s := "global".toList) (.identifier (by decide))
    (.plain (.identifier (by decide)))))

theorem exists_of_argumentSample :
    ∃ trees number d levels, parseAll argumentSample = .ok trees ∧
      HasScope trees number d levels ∧
      let table := ofTrees trees
      let means text id := ∃ base ∈ d.bases, base.text = text ∧
        table.model.baseType? number d base = id
      table.resolveReference? levels ⟨.plain, ["N"], 1⟩ = some ⟨"N`1"⟩ ∧
      means "N<(int, A<B, C>)[]>" (some ⟨"N`1"⟩) ∧ means "N<int[,]>" (some ⟨"N`2"⟩) ∧
      means "N<global::X>" none := by
  have hread : ∃ trees ∈ (parseAll argumentSample).toOption, ∃ e ∈ (ofTrees trees).entries,
      let table := ofTrees trees
      let means text id := ∃ base ∈ e.declaration.bases, base.text = text ∧
        table.model.baseType? e.tree e.declaration base = id
      table.resolveReference? e.levels ⟨.plain, ["N"], 1⟩ = some ⟨"N`1"⟩ ∧
      means "N<(int, A<B, C>)[]>" (some ⟨"N`1"⟩) ∧ means "N<int[,]>" (some ⟨"N`2"⟩) ∧
      means "N<global::X>" none := by
    decide +kernel
  obtain ⟨trees, htrees, e, he, hmeanings⟩ := hread
  exact ⟨trees, e.tree, e.declaration, e.levels, eq_ok_of_toOption htrees,
    hasScope_of_mem_entries he, hmeanings⟩

/-- An array of tuples is one argument, whatever its elements hold. -/
theorem baseType?_of_isArgumentText_argumentSample :
    ∃ trees number d levels base, parseAll argumentSample = .ok trees ∧
      HasScope trees number d levels ∧ base.text = "N<(int, A<B, C>)[]>" ∧
      (ofTrees trees).model.baseType? number d base = some ⟨"N`1"⟩ ∧
      (ofTrees trees).model.baseType? number d base =
        (ofTrees trees).resolveReference? levels ⟨.plain, ["N"], 1⟩ := by
  obtain ⟨trees, number, d, levels, htrees, hd, -, ⟨base, -, htext, hmeaning⟩, -⟩ :=
    exists_of_argumentSample
  have hbase : base.text = ".".intercalate ["N"] ++ "<" ++ "(int, A<B, C>)[]" ++ ">" :=
    htext.trans (by decide)
  obtain ⟨-, hcounted, -⟩ :=
    baseType?_of_isArgumentText htrees hd (by decide) (by decide) isArgumentText_tuples hbase
  exact ⟨trees, number, d, levels, base, htrees, hd, htext, hmeaning, (hcounted (by decide)).2⟩

/-- With two dimensions an array is counted as two arguments, and a qualified name leaves the whole
name without a meaning, although each is one argument and the type is declared. -/
theorem baseType?_argumentSample :
    ∃ trees number d levels, parseAll argumentSample = .ok trees ∧
      HasScope trees number d levels ∧
      let table := ofTrees trees
      let means text id := ∃ base ∈ d.bases, base.text = text ∧
        table.model.baseType? number d base = id
      table.resolveReference? levels ⟨.plain, ["N"], 1⟩ = some ⟨"N`1"⟩ ∧
      IsArgumentText (.arguments 1) 1 "int[,]".toList ∧ means "N<int[,]>" (some ⟨"N`2"⟩) ∧
      IsArgumentText (.arguments 1) 0 "global::X".toList ∧ means "N<global::X>" none := by
  obtain ⟨trees, number, d, levels, htrees, hd, hresolve, -, hrank, hqualified⟩ :=
    exists_of_argumentSample
  exact ⟨trees, number, d, levels, htrees, hd, hresolve, isArgumentText_rank, hrank,
    isArgumentText_qualified, hqualified⟩

end DeclarationTable

end DoubleDispatch
