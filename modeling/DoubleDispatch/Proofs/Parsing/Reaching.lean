import DoubleDispatch.Proofs.Parsing.PairedBody

/-!
# Places between the items of a body

A body that is read comes to the start of each of its items, also of those in its namespaces
(`Stream.Reaches`). If two sources have the same tokens up to such a place, then the other body
comes to a place as well, and what it gives is decided there: if nothing is given from there on,
the other body gives nothing, and what holds of the two files that are given there holds of the
whole, as long as it does not matter what stands around (`Replacement.isDecided_of_reaches`).
-/

namespace DoubleDispatch

namespace Stream

variable {source : List Char}

/-- The body that starts at a stream comes to the start of an item: of its first one, behind a
directive, in a namespace or behind one in braces, behind a type, or behind another item. -/
inductive Reaches (source : List Char) (braced' : Bool) (ordinal' : Nat) (t : Stream) :
    Bool → Nat → Stream → Prop
  | here : Reaches source braced' ordinal' t braced' ordinal' t
  | behindUsing {braced : Bool} {ordinal : Nat} {s : Stream} {directive : Parsed UsingDirective}
      (goesOn : GoesOn braced s) (found : s.using? source = some directive)
      (h : Reaches source braced' ordinal' t braced ordinal directive.rest) :
    Reaches source braced' ordinal' t braced ordinal s
  | inNamespace {braced : Bool} {ordinal : Nat} {s : Stream} {header : Parsed (String × Bool)}
      (goesOn : GoesOn braced s) (noUsing : s.using? source = none)
      (word : s.kind.isWord "namespace" = true) (found : s.advance.namespaceHeader = .ok header)
      (h : Reaches source braced' ordinal' t (braced || !header.value.2) ordinal header.rest) :
    Reaches source braced' ordinal' t braced ordinal s
  | behindNamespace {braced : Bool} {ordinal : Nat} {s : Stream}
      {header : Parsed (String × Bool)} {content : Body} (goesOn : GoesOn braced s)
      (noUsing : s.using? source = none) (word : s.kind.isWord "namespace" = true)
      (found : s.advance.namespaceHeader = .ok header) (block : header.value.2 = false)
      (read : Reads source (braced || !header.value.2) ordinal header.rest content)
      (h : Reaches source braced' ordinal' t braced content.ordinal
        (content.rest.behindBody header.value.2)) :
    Reaches source braced' ordinal' t braced ordinal s
  | behindType {braced : Bool} {ordinal : Nat} {s : Stream}
      {declaration : Parsed TypeDeclaration} (goesOn : GoesOn braced s)
      (noUsing : s.using? source = none) (noNamespace : s.kind.isWord "namespace" = false)
      (found : s.typeDeclaration? source ordinal = .ok (some declaration))
      (h : Reaches source braced' ordinal' t braced (ordinal + 1) declaration.rest) :
    Reaches source braced' ordinal' t braced ordinal s
  | behindItem {braced : Bool} {ordinal : Nat} {s next : Stream} (goesOn : GoesOn braced s)
      (noUsing : s.using? source = none) (noNamespace : s.kind.isWord "namespace" = false)
      (noType : s.typeDeclaration? source ordinal = .ok none) (found : s.skipItem = .ok next)
      (h : Reaches source braced' ordinal' t braced ordinal next) :
    Reaches source braced' ordinal' t braced ordinal s

namespace Reaches

variable {braced braced' : Bool} {ordinal ordinal' : Nat} {s t : Stream}

/-- A body is passed over up to each of its items. -/
theorem exists_passes (h : Reaches source braced' ordinal' t braced ordinal s) :
    ∃ strays, s.Passes t strays := by
  induction h with
  | here => exact ⟨[], .refl _⟩
  | behindUsing _ found _ ih => exact exists_passes_trans (takesItem_using found).passes ih
  | inNamespace _ _ word found _ ih =>
    exact exists_passes_trans (takesItem_namespaceHeader word found).passes ih
  | behindNamespace _ _ word found _ read _ ih =>
    exact exists_passes_trans (exists_passes_trans (takesItem_namespaceHeader word found).passes
      read.exists_passes) (exists_passes_trans read.exists_passes_behindBody ih)
  | behindType _ _ _ found _ ih =>
    exact exists_passes_trans (takesItem_typeDeclaration? found).passes ih
  | behindItem goesOn _ _ _ found _ ih =>
    exact exists_passes_trans ⟨[], passes_skipItem goesOn.kind found⟩ ih

end Reaches

end Stream

/-- The end of tokens that end like an item does so too. -/
theorem EndsItem.of_append {front back : List Token} (h : EndsItem (front ++ back)) :
    back = [] ∨ EndsItem back := by
  obtain ⟨inner, last, heq, hstop⟩ := h
  rcases List.eq_nil_or_concat back with hnone | ⟨back, end', rfl⟩
  · exact .inl hnone
  · rw [List.concat_eq_append, ← List.append_assoc] at heq
    obtain ⟨-, hlast⟩ := List.append_inj' heq rfl
    obtain rfl := List.singleton_inj.1 hlast
    exact .inr ⟨back, end', List.concat_eq_append, hstop⟩

namespace Pairing

variable {P Q : Pairing} {s s' t u : Stream}

/-- The left tail starts at a stream ahead, where an item ends or nothing stands before it. -/
def MeetsTail (P : Pairing) (s t : Stream) : Prop :=
  t.ahead = P.leftTail ∧ ∃ front, s.ahead = front ++ t.ahead ∧ (front = [] ∨ EndsItem front)

/-- Between a stream and a place behind it, what stands before the tail is passed over and ends like
an item, and at the place the tail has not been passed. -/
structure GuardedUpTo (P : Pairing) (s t : Stream) : Prop where
  clears : P.Clears t
  guarded_of_passes : ∀ u, (∃ strays, s.Passes u strays) → (∃ strays, u.Passes t strays) →
    t.size < u.size → P.Guarded u

namespace GuardedUpTo

theorem of_guarded (h : P.Guarded t) : P.GuardedUpTo s t :=
  ⟨h.before.clears, fun _ _ hut _ ↦ h.of_passes hut⟩

/-- A tail that starts where an item does is guarded from every stream before. -/
theorem of_meetsTail (hclear : P.IsClear) (h : P.MeetsTail s t) : P.GuardedUpTo s t := by
  obtain ⟨htail, front, hfront, hends⟩ := h
  refine ⟨.inr ⟨⟨[], htail.symm⟩, hclear⟩, fun u hsu hut hlt ↦ ?_⟩
  obtain ⟨_, taken, htaken, -⟩ := hsu
  obtain ⟨strays, later, hlater, hpassage⟩ := hut
  obtain rfl : front = taken ++ later := by
    refine List.append_cancel_right (?_ : front ++ t.ahead = taken ++ later ++ t.ahead)
    rw [← hfront, List.append_assoc, ← hlater, htaken]
  have hne : later ≠ [] := by
    rintro rfl
    rw [Stream.size, Stream.size, hlater, List.nil_append] at hlt
    exact absurd hlt (Nat.lt_irrefl _)
  have hends := hends.resolve_left (fun hnone ↦ hne (List.append_eq_nil_iff.1 hnone).2)
  exact .inr ⟨later, strays, by rw [hlater, htail], hpassage, hends.of_append.resolve_left hne⟩

/-- Behind an item that is read before the place, the tail is still ahead. -/
theorem behind (h : P.GuardedUpTo s t) (hsu : ∃ strays, s.Passes u strays)
    (hut : ∃ strays, u.Passes t strays) : P.Clears u ∧ P.GuardedUpTo u t :=
  have hsuffix : t.ahead <:+ u.ahead := by
    obtain ⟨_, hpasses⟩ := hut
    exact hpasses.suffix
  ⟨h.clears.of_suffix hsuffix, h.clears, fun v huv hvt hlt ↦
    h.guarded_of_passes v (Stream.exists_passes_trans hsu huv) hvt hlt⟩

/-- Before an item that lies before the place, the tail is guarded. -/
theorem guarded (h : P.GuardedUpTo s t) (hsu : ∃ strays, s.Passes u strays)
    (hut : ∃ strays, u.Passes t strays) (hlt : u.size < s.size) : P.Guarded s := by
  refine h.guarded_of_passes s ⟨[], .refl _⟩ (Stream.exists_passes_trans hsu hut) ?_
  obtain ⟨_, hpasses⟩ := hut
  exact Nat.lt_of_le_of_lt hpasses.suffix.length_le hlt

end GuardedUpTo

end Pairing

/-! ### Relations between files -/

namespace SourceFile

/-- A relation between files that holds whatever stands around, as long as that matches. -/
structure IsLocal (A : SourceFile → SourceFile → Prop) : Prop where
  behindUsing {u u' : UsingDirective} {file file' : SourceFile} (first : u.Matches .same u')
    (h : A file file') :
    A ⟨u :: file.usings, file.members⟩ ⟨u' :: file'.usings, file'.members⟩
  behindMember {m m' : Member} {file file' : SourceFile} (first : m.Matches .same m')
    (h : A file file') :
    A ⟨file.usings, m :: file.members⟩ ⟨file'.usings, m' :: file'.members⟩
  inNamespace {content content' later later' : SourceFile} (name : String) (fileScoped : Bool)
    (span span' : Span) (behind : later.Matches .same later') (h : A content content') :
    A ⟨later.usings, .scope name fileScoped content.usings content.members span :: later.members⟩
      ⟨later'.usings, .scope name fileScoped content'.usings content'.members span' ::
        later'.members⟩

/-- Files that match still do if what stands around does. -/
theorem isLocal_matches : IsLocal (Matches .same) where
  behindUsing first h := ⟨.cons first h.usings, h.members⟩
  behindMember first h := ⟨h.usings, first, h.members⟩
  inNamespace _ _ _ _ behind h := ⟨behind.usings, ⟨rfl, rfl, h.usings, h.members⟩, behind.members⟩

end SourceFile

/-! ### Text that is replaced -/

/-- A source in which a part is replaced. -/
structure Replacement where
  before : List Char
  removed : List Char
  inserted : List Char
  behind : List Char

namespace Replacement

open Text (byteLength)

variable (R : Replacement)

/-- The source with the old text. -/
def source : List Char := R.before ++ (R.removed ++ R.behind)

/-- The source with the new text. -/
def changed : List Char := R.before ++ (R.inserted ++ R.behind)

/-- What stands before the place, up to some tokens on either side. -/
abbrev front (leftTail rightTail : List Token) : Pairing where
  left := R.source
  right := R.changed
  leftTail := leftTail
  rightTail := rightTail
  Meet n n' := n' = n ∧ n ≤ byteLength R.before
  IsExact := True
  IsOrdered := True
  slice_eq _ _ _ _ _ hn hm := by
    obtain ⟨rfl, hn⟩ := hn
    obtain ⟨rfl, hm⟩ := hm
    rw [source, changed, Text.slice_append_of_le hn hm, Text.slice_append_of_le hn hm]
  lt_iff _ _ _ _ _ hn hm := by rw [hn.1, hm.1]

/-- What stands behind the place. -/
abbrev back : Pairing where
  left := R.source
  right := R.changed
  leftTail := []
  rightTail := []
  Meet n n' := ∃ m, n = byteLength R.before + byteLength R.removed + m ∧
    n' = byteLength R.before + byteLength R.inserted + m
  IsExact := True
  IsOrdered := True
  slice_eq _ _ _ _ _ hn hm := by
    obtain ⟨n, rfl, rfl⟩ := hn
    obtain ⟨m, rfl, rfl⟩ := hm
    rw [source, changed, ← List.append_assoc, ← List.append_assoc, ← Text.byteLength_append,
      ← Text.byteLength_append, Text.slice_byteLength_add, Text.slice_byteLength_add]
  lt_iff _ _ _ _ _ hn hm := by
    obtain ⟨n, rfl, rfl⟩ := hn
    obtain ⟨m, rfl, rfl⟩ := hm
    omega

/-- What two bodies hold is related, and they end side by side behind the place. -/
structure Agree (A : SourceFile → SourceFile → Prop) (b b' : Stream.Body) : Prop where
  file : A ⟨b.usings, b.members⟩ ⟨b'.usings, b'.members⟩
  ordinal : b'.ordinal = b.ordinal
  rest : R.back.Beside b.rest b'.rest

/-- A parser is decided by another one: it gives nothing if that gives nothing, and a body that
agrees with one if that gives a body that agrees with another. -/
structure Decides (A : SourceFile → SourceFile → Prop) (b₀ : Stream.Body)
    (x : Except ParseError Stream.Body) (b : Stream.Body) (y : Except ParseError Stream.Body) :
    Prop where
  fails : (∀ b', x ≠ .ok b') → ∀ b', y ≠ .ok b'
  agrees : ∀ b', x = .ok b' → R.Agree A b₀ b' → ∃ b', y = .ok b' ∧ R.Agree A b b'

variable {R} {A : SourceFile → SourceFile → Prop}

/-- What goes on from bodies that agree is decided as well, as long as it gives such bodies. -/
theorem Decides.bind {b₀ b c : Stream.Body} {x y : Except ParseError Stream.Body}
    {f : Stream.Body → Except ParseError Stream.Body} (h : R.Decides A b₀ x b y)
    (hf : ∀ b', R.Agree A b b' → ∃ c', f b' = .ok c' ∧ R.Agree A c c') :
    R.Decides A b₀ x c (y >>= f) where
  fails hx c' hc' := by
    obtain ⟨b', hb', -⟩ := exists_of_bind_eq_ok hc'
    exact h.fails hx b' hb'
  agrees b' hb' hagree := by
    obtain ⟨b', rfl, hagree⟩ := h.agrees b' hb' hagree
    exact hf b' hagree

/-- Behind the place there are no tails to guard. -/
theorem back_guarded (s : Stream) : R.back.Guarded s := .inl ⟨rfl, rfl⟩

/-- If a pairing is exact, the names of what it compares are the same. -/
theorem implies_same (P : Pairing) (h : P.IsExact) : P.names.Implies .same where
  usingTarget _ _ hn := (hn h).symm
  attributeName _ _ hn := (hn h).symm
  baseText _ _ hn := (hn h).symm

/-- **What stands behind the place is read alike.** -/
theorem exists_agree {s s' : Stream} (h : R.back.Beside s s') {braced : Bool} {ordinal : Nat}
    {b : Stream.Body} (hb : Stream.Reads R.source braced ordinal s b) :
    ∃ b', Stream.bodyOf R.changed braced ordinal s' = .ok b' ∧
      R.Agree (SourceFile.Matches .same) b b' := by
  obtain ⟨b', hb', hlike, hfollows⟩ :=
    (h.reads hb (back_guarded _)).exists_eq_ok trivial
  have hmatches := hlike.matches
  have hsame := implies_same R.back trivial
  exact ⟨b', hb', ⟨hsame.usings hmatches.usings, hsame.members hmatches.members⟩,
    hmatches.ordinal, hfollows.beside⟩

/-- A namespace in braces does not end with its content. -/
theorem size_behindBody_lt {source : List Char} {braced fileScoped : Bool} {ordinal : Nat}
    {s : Stream} {content : Stream.Body}
    (h : Stream.Reads source (braced || !fileScoped) ordinal s content)
    (hblock : fileScoped = false) :
    (content.rest.behindBody fileScoped).size < content.rest.size := by
  have hclose := h.kind_rest_of_block hblock
  rw [hblock, Stream.behindBody, if_neg (by decide)]
  exact Nat.lt_of_le_of_lt (Stream.size_eat_le _ _)
    (Stream.size_advance_lt (by rw [hclose]; decide))

section Reaching

variable {leftTail rightTail : List Token} {braced braced' : Bool} {ordinal ordinal' : Nat}
  {s s' t : Stream} {b : Stream.Body}

/-- What is given at the place decides what is given from a stream on, wherever the changed source
has the same tokens up to the place. -/
def IsDecided (R : Replacement) (A : SourceFile → SourceFile → Prop)
    (leftTail rightTail : List Token) (braced' : Bool) (ordinal' : Nat) (t : Stream) (braced : Bool)
    (ordinal : Nat) (s : Stream) : Prop :=
  (R.front leftTail rightTail).GuardedUpTo s t →
    ∀ s' b, (R.front leftTail rightTail).Beside s s' →
      Stream.bodyOf R.source braced ordinal s = .ok b →
        ∃ t' b₀, (R.front leftTail rightTail).Beside t t' ∧
          Stream.bodyOf R.source braced' ordinal' t = .ok b₀ ∧
            R.Decides A b₀ (Stream.bodyOf R.changed braced' ordinal' t') b
              (Stream.bodyOf R.changed braced ordinal s')

namespace IsDecided

theorem here : R.IsDecided A leftTail rightTail braced' ordinal' t braced' ordinal' t :=
  fun _ s' b h hb ↦ ⟨s', b, h, hb, id, fun b' hb' hagree ↦ ⟨b', hb', hagree⟩⟩

/-- A directive before the place stays. -/
theorem behindUsing (hA : SourceFile.IsLocal A) {u : Parsed UsingDirective}
    (goesOn : Stream.GoesOn braced s) (found : s.using? R.source = some u)
    (hpasses : ∃ strays, u.rest.Passes t strays)
    (ih : R.IsDecided A leftTail rightTail braced' ordinal' t braced ordinal u.rest) :
    R.IsDecided A leftTail rightTail braced' ordinal' t braced ordinal s := by
  intro hplace s' b h hb
  rw [goesOn.bodyOf_using found] at hb
  obtain ⟨later, hlater, hb⟩ := exists_of_bind_eq_ok hb
  cases hb
  obtain ⟨hclears, hrest⟩ := hplace.behind (Stream.takesItem_using found).passes hpasses
  obtain ⟨u', hlike, hlevel, heq⟩ := h.bodyOf_using goesOn found hclears.upTo
  obtain ⟨t', b₀, ht', hb₀, hdecides⟩ := ih hrest _ _ hlevel.beside hlater
  rw [heq]
  refine ⟨t', b₀, ht', hb₀, hdecides.bind fun later' hagree ↦ ?_⟩
  have hsame := implies_same (R.front leftTail rightTail) trivial
  exact ⟨_, rfl, hA.behindUsing (hsame.usingDirective hlike.toMatches) hagree.file,
    hagree.ordinal, hagree.rest⟩

/-- A namespace around the place stays, and so does what is behind it. -/
theorem inNamespace (hA : SourceFile.IsLocal A) {header : Parsed (String × Bool)}
    (goesOn : Stream.GoesOn braced s) (noUsing : s.using? R.source = none)
    (word : s.kind.isWord "namespace" = true)
    (found : s.advance.namespaceHeader = .ok header)
    (hpasses : ∃ strays, header.rest.Passes t strays)
    (ih : R.IsDecided A leftTail rightTail braced' ordinal' t (braced || !header.value.2) ordinal
      header.rest) :
    R.IsDecided A leftTail rightTail braced' ordinal' t braced ordinal s := by
  intro hplace s' b h hb
  rw [goesOn.bodyOf_namespace noUsing word, Stream.bodyFromNamespace, found, Stream.ok_bind] at hb
  obtain ⟨content, hcontent, hb⟩ := exists_of_bind_eq_ok hb
  obtain ⟨later, hlater, hb⟩ := exists_of_bind_eq_ok hb
  cases hb
  have hheader := (Stream.takesItem_namespaceHeader word found).passes
  obtain ⟨hclears, hrest⟩ := hplace.behind hheader hpasses
  have hguarded := hplace.guarded hheader hpasses
    (Nat.lt_of_lt_of_le (Stream.size_namespaceHeader_lt found) s.size_advance_le)
  obtain ⟨header', hvalue, hlevel, heq⟩ :=
    h.bodyOf_namespace hguarded goesOn noUsing word found hclears.upTo
  obtain ⟨t', b₀, ht', hb₀, hdecides⟩ := ih hrest _ _ hlevel.beside hcontent
  rw [heq]
  refine ⟨t', b₀, ht', hb₀, hdecides.bind fun content' hagree ↦ ?_⟩
  -- The place is in the content, and what follows is read behind it in both sources.
  obtain ⟨later', hlater', hlaters⟩ := exists_agree
    (hagree.rest.behindBody (back_guarded _).before (back_guarded _).before.clears)
    (Stream.bodyOf_eq_ok_iff.1 hlater)
  rw [hagree.ordinal, hlater']
  exact ⟨_, rfl, hA.inNamespace _ _ _ _ hlaters.file hagree.file, hlaters.ordinal, hlaters.rest⟩

/-- A namespace before the place stays. -/
theorem behindNamespace (hA : SourceFile.IsLocal A) {header : Parsed (String × Bool)}
    {content : Stream.Body} (goesOn : Stream.GoesOn braced s) (noUsing : s.using? R.source = none)
    (word : s.kind.isWord "namespace" = true) (found : s.advance.namespaceHeader = .ok header)
    (block : header.value.2 = false)
    (read : Stream.Reads R.source (braced || !header.value.2) ordinal header.rest content)
    (hpasses : ∃ strays, (content.rest.behindBody header.value.2).Passes t strays)
    (ih : R.IsDecided A leftTail rightTail braced' ordinal' t braced content.ordinal
      (content.rest.behindBody header.value.2)) :
    R.IsDecided A leftTail rightTail braced' ordinal' t braced ordinal s := by
  intro hplace s' b h hb
  rw [goesOn.bodyOf_namespace noUsing word, Stream.bodyFromNamespace, found, Stream.ok_bind,
    read.bodyOf_eq, Stream.ok_bind] at hb
  obtain ⟨later, hlater, hb⟩ := exists_of_bind_eq_ok hb
  cases hb
  have hheader := (Stream.takesItem_namespaceHeader word found).passes
  have hcontent := Stream.exists_passes_trans read.exists_passes_behindBody hpasses
  have hall := Stream.exists_passes_trans read.exists_passes hcontent
  obtain ⟨hclears, hrest⟩ := hplace.behind hheader hall
  have hguarded := hplace.guarded hheader hall
    (Nat.lt_of_lt_of_le (Stream.size_namespaceHeader_lt found) s.size_advance_le)
  -- The content is read before the place, up to the closing brace.
  obtain ⟨-, hcontentRest⟩ := hrest.behind read.exists_passes hcontent
  obtain ⟨hbehind, hbehindRest⟩ := hcontentRest.behind read.exists_passes_behindBody hpasses
  have hcontentGuarded := hcontentRest.guarded read.exists_passes_behindBody hpasses
    (size_behindBody_lt read block)
  obtain ⟨header', hvalue, hlevel, heq⟩ :=
    h.bodyOf_namespace hguarded goesOn noUsing word found hclears.upTo
  obtain ⟨content', hcontent', hcontents, hfollows⟩ :=
    (hlevel.beside.reads read hcontentGuarded).exists_eq_ok trivial
  have hbehinds := hfollows.beside.behindBody hcontentGuarded.before hbehind
  obtain ⟨t', b₀, ht', hb₀, hdecides⟩ := ih hbehindRest _ _ hbehinds hlater
  rw [heq, hcontent', Stream.ok_bind, hcontents.ordinal]
  refine ⟨t', b₀, ht', hb₀, hdecides.bind fun later' hagree ↦ ?_⟩
  have hsame := implies_same (R.front leftTail rightTail) trivial
  have hscope : Member.Matches .same
      (.scope header.value.1 header.value.2 content.usings content.members
        ⟨s.start, (content.rest.behindBody header.value.2).prevEnd⟩)
      (.scope header.value.1 header.value.2 content'.usings content'.members
        ⟨s'.start, (content'.rest.behindBody header.value.2).prevEnd⟩) :=
    ⟨rfl, rfl, hsame.usings hcontents.matches.usings, hsame.members hcontents.matches.members⟩
  exact ⟨_, rfl, hA.behindMember hscope hagree.file, hagree.ordinal, hagree.rest⟩

/-- A type before the place stays. -/
theorem behindType (hA : SourceFile.IsLocal A) {d : Parsed TypeDeclaration}
    (goesOn : Stream.GoesOn braced s) (noUsing : s.using? R.source = none)
    (noNamespace : s.kind.isWord "namespace" = false)
    (found : s.typeDeclaration? R.source ordinal = .ok (some d))
    (hpasses : ∃ strays, d.rest.Passes t strays)
    (ih : R.IsDecided A leftTail rightTail braced' ordinal' t braced (ordinal + 1) d.rest) :
    R.IsDecided A leftTail rightTail braced' ordinal' t braced ordinal s := by
  intro hplace s' b h hb
  rw [goesOn.bodyOf_type noUsing noNamespace, Stream.bodyFromType, found] at hb
  dsimp only at hb
  obtain ⟨later, hlater, hb⟩ := exists_of_bind_eq_ok hb
  cases hb
  have hdeclaration := (Stream.takesItem_typeDeclaration? found).passes
  obtain ⟨hclears, hrest⟩ := hplace.behind hdeclaration hpasses
  have hguarded := hplace.guarded hdeclaration hpasses (Stream.size_typeDeclaration?_lt found)
  obtain ⟨d', hlike, hlevel, heq⟩ | ⟨hordered, -⟩ :=
    h.bodyOf_type hguarded goesOn noUsing noNamespace found hclears
  · obtain ⟨t', b₀, ht', hb₀, hdecides⟩ := ih hrest _ _ hlevel.beside hlater
    rw [heq]
    refine ⟨t', b₀, ht', hb₀, hdecides.bind fun later' hagree ↦ ?_⟩
    have hsame := implies_same (R.front leftTail rightTail) trivial
    have htype : Member.Matches .same (.type d.value) (.type d'.value) :=
      hsame.declaration hlike.matches
    exact ⟨_, rfl, hA.behindMember htype hagree.file, hagree.ordinal, hagree.rest⟩
  · exact absurd trivial hordered

/-- An item before the place is skipped in both sources. -/
theorem behindItem {next : Stream} (goesOn : Stream.GoesOn braced s)
    (noUsing : s.using? R.source = none) (noNamespace : s.kind.isWord "namespace" = false)
    (noType : s.typeDeclaration? R.source ordinal = .ok none) (found : s.skipItem = .ok next)
    (hpasses : ∃ strays, next.Passes t strays)
    (ih : R.IsDecided A leftTail rightTail braced' ordinal' t braced ordinal next) :
    R.IsDecided A leftTail rightTail braced' ordinal' t braced ordinal s := by
  intro hplace s' b h hb
  rw [goesOn.bodyOf_type noUsing noNamespace, Stream.bodyFromType, noType] at hb
  dsimp only at hb
  rw [found, Stream.ok_bind] at hb
  have hitem : ∃ strays, s.Passes next strays := ⟨[], Stream.passes_skipItem goesOn.kind found⟩
  obtain ⟨hclears, hrest⟩ := hplace.behind hitem hpasses
  have hguarded := hplace.guarded hitem hpasses (Stream.size_skipItem_lt goesOn.kind found)
  obtain ⟨next', hlevel, heq⟩ :=
    h.bodyOf_item hguarded goesOn noUsing noNamespace noType found hclears.upTo
  rw [heq]
  exact ih hrest _ _ hlevel.beside hb

end IsDecided

/-- **What is given at the place decides what is given for the whole.** -/
theorem isDecided_of_reaches (hA : SourceFile.IsLocal A)
    (hreaches : Stream.Reaches R.source braced' ordinal' t braced ordinal s) :
    R.IsDecided A leftTail rightTail braced' ordinal' t braced ordinal s := by
  induction hreaches with
  | here => exact .here
  | behindUsing goesOn found hreaches ih =>
    exact ih.behindUsing hA goesOn found hreaches.exists_passes
  | inNamespace goesOn noUsing word found hreaches ih =>
    exact ih.inNamespace hA goesOn noUsing word found hreaches.exists_passes
  | behindNamespace goesOn noUsing word found block read hreaches ih =>
    exact ih.behindNamespace hA goesOn noUsing word found block read hreaches.exists_passes
  | behindType goesOn noUsing noNamespace found hreaches ih =>
    exact ih.behindType hA goesOn noUsing noNamespace found hreaches.exists_passes
  | behindItem goesOn noUsing noNamespace noType found hreaches ih =>
    exact ih.behindItem goesOn noUsing noNamespace noType found hreaches.exists_passes

end Reaching

end Replacement

/-! ### Text that is inserted -/

/-- A source with a place in it, and text that is inserted there. -/
structure Insertion where
  before : List Char
  inserted : List Char
  behind : List Char

namespace Insertion

variable (I : Insertion)

/-- The source without the text. -/
def source : List Char := I.before ++ I.behind

/-- The source with the text. -/
def changed : List Char := I.before ++ (I.inserted ++ I.behind)

/-- Nothing is replaced by the text. -/
def replacement : Replacement := ⟨I.before, [], I.inserted, I.behind⟩

variable {I}

/-- What is given at the place of an insertion decides what is given for the whole. -/
theorem isDecided_of_reaches {leftTail rightTail : List Token} {braced braced' : Bool}
    {ordinal ordinal' : Nat} {s t : Stream}
    (hclear : (I.replacement.front leftTail rightTail).IsClear)
    (hreaches : Stream.Reaches I.source braced' ordinal' t braced ordinal s)
    (htail : (I.replacement.front leftTail rightTail).MeetsTail s t) (s' : Stream)
    (b : Stream.Body) (h : (I.replacement.front leftTail rightTail).Beside s s')
    (hb : Stream.bodyOf I.source braced ordinal s = .ok b) :
    ∃ t' b₀, t'.ahead = rightTail ∧ Stream.bodyOf I.source braced' ordinal' t = .ok b₀ ∧
      I.replacement.Decides (SourceFile.Matches .same) b₀
        (Stream.bodyOf I.changed braced' ordinal' t') b
        (Stream.bodyOf I.changed braced ordinal s') := by
  obtain ⟨t', b₀, ⟨front, front', hfront, hfront', hmeets⟩, hrest⟩ :=
    Replacement.isDecided_of_reaches (R := I.replacement) SourceFile.isLocal_matches hreaches
      (.of_meetsTail hclear htail) s' b h hb
  obtain rfl : front = [] := List.append_left_eq_self.1 (hfront.symm.trans htail.1)
  obtain rfl := List.forall₂_nil_left_iff.1 hmeets
  exact ⟨t', b₀, hfront', hrest⟩

/-- What stands behind an insertion is read as before. -/
theorem exists_agree {s s' : Stream} (h : I.replacement.back.Beside s s') {braced : Bool}
    {ordinal : Nat} {b : Stream.Body} (hb : Stream.Reads I.source braced ordinal s b) :
    ∃ b', Stream.bodyOf I.changed braced ordinal s' = .ok b' ∧
      I.replacement.Agree (SourceFile.Matches .same) b b' :=
  Replacement.exists_agree h hb

end Insertion

end DoubleDispatch
