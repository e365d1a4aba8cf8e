import DoubleDispatch.Proofs.Binding.Identity
import DoubleDispatch.Proofs.Binding.Namespaces
import DoubleDispatch.Proofs.Hierarchy.Participants
import Mathlib.Data.List.Find

/-!
# Declarations of one type

A type may be declared in several places, and the namespaces around these places may be written in
several ways. What its declarations have in common is their `TypeKey`: the namespace, the name and
the number of type parameters. An id is made from a key and says what the key is
(`TypeKey.id_inj`), and a namespace has one name, whether its segments are written together or one
inside the other (`Namespace.foldl_child_join`, `Namespace.join_inj`). So declarations belong to one
type exactly if their keys agree: the table and both searches, which compare ids, keep one entry for
each key (`Compilation.MergesByKey`, `SymbolId.unambiguous`).
-/

namespace DoubleDispatch

/-! ### Lists without repetitions -/

/-- What differs from an element in one respect differs from it in another one, if both tell it
apart alike. -/
theorem filter_differs_congr {α β γ : Type} [BEq β] [LawfulBEq β] [BEq γ] [LawfulBEq γ]
    {f : α → β} {g : α → γ} {a : α} {l : List α} (h : ∀ b ∈ l, f b = f a ↔ g b = g a) :
    (l.filter fun b ↦ !f b == f a) = l.filter fun b ↦ !g b == g a := by
  refine List.filter_congr fun b hb ↦ ?_
  rw [Bool.eq_iff_iff]
  simp [h b hb]

section

variable {α β : Type} [BEq α] [LawfulBEq α] [BEq β] [LawfulBEq β]

theorem filter_eraseDups (p : α → Bool) :
    ∀ l : List α, l.eraseDups.filter p = (l.filter p).eraseDups
  | [] => rfl
  | a :: l => by
    have hlt : (l.filter fun b ↦ !b == a).length < (a :: l).length :=
      Nat.lt_succ_of_le (List.length_filter_le _ _)
    rw [List.eraseDups_cons]
    by_cases ha : p a
    · rw [List.filter_cons_of_pos ha, List.filter_cons_of_pos ha, List.eraseDups_cons,
        filter_eraseDups p _, List.filter_comm]
    · -- The copies of the first element are left out with it.
      have hcopies : (l.filter fun b ↦ !b == a).filter p = l.filter p := by
        rw [List.filter_filter]
        refine List.filter_congr fun b _ ↦ ?_
        by_cases hb : b = a
        · rw [hb, Bool.eq_false_iff.2 ha, Bool.false_and]
        · rw [beq_eq_false_iff_ne.2 hb, Bool.not_false, Bool.and_true]
      rw [List.filter_cons_of_neg ha, List.filter_cons_of_neg ha, filter_eraseDups p _, hcopies]
termination_by l => l.length
decreasing_by all_goals exact hlt

/-- The first element stays, and its copies go. -/
theorem eraseDups_cons_eq (a : α) (l : List α) :
    (a :: l).eraseDups = a :: l.eraseDups.filter (!· == a) := by
  rw [List.eraseDups_cons, filter_eraseDups]

/-- Images that differ are the images of what differs. -/
theorem map_eraseDups {f : α → β} {l : List α} (h : ∀ a ∈ l, ∀ b ∈ l, f a = f b → a = b) :
    l.eraseDups.map f = (l.map f).eraseDups := by
  induction l with
  | nil => rfl
  | cons a l ih =>
    have hl := ih fun b hb c hc ↦ h b (List.mem_cons_of_mem a hb) c (List.mem_cons_of_mem a hc)
    have hdiffers : l.eraseDups.filter (!· == a) = l.eraseDups.filter fun b ↦ !f b == f a := by
      refine filter_differs_congr (f := id) fun b hb ↦ ⟨congrArg f, h b ?_ a List.mem_cons_self⟩
      exact List.mem_cons_of_mem a (List.mem_eraseDups.1 hb)
    rw [eraseDups_cons_eq, List.map_cons, List.map_cons, eraseDups_cons_eq, ← hl, List.filter_map,
      hdiffers]
    rfl

theorem firstOfEach_subset (ps : List Participant) : firstOfEach ps ⊆ ps := by
  induction ps with
  | nil => exact List.Subset.refl _
  | cons p ps ih => exact List.cons_subset_cons p (List.Subset.trans (List.filter_subset_self _) ih)

/-- Where ids agree exactly if keys do, there is a first participant for each key. -/
theorem map_firstOfEach {key : Participant → β} {ps : List Participant}
    (h : ∀ p ∈ ps, ∀ q ∈ ps, p.id = q.id ↔ key p = key q) :
    (firstOfEach ps).map key = (ps.map key).eraseDups := by
  induction ps with
  | nil => rfl
  | cons p ps ih =>
    have hps := ih fun q hq r hr ↦ h q (List.mem_cons_of_mem p hq) r (List.mem_cons_of_mem p hr)
    have hdiffers : (firstOfEach ps).filter (·.id != p.id) =
        (firstOfEach ps).filter fun q ↦ !key q == key p := by
      refine filter_differs_congr fun q hq ↦ h q ?_ p List.mem_cons_self
      exact List.mem_cons_of_mem p (firstOfEach_subset ps hq)
    rw [firstOfEach, List.map_cons, List.map_cons, eraseDups_cons_eq, ← hps, List.filter_map,
      hdiffers]
    rfl

end

/-! ### Keys -/

/-- What tells a type from all others. -/
structure TypeKey where
  ns : Namespace
  name : String
  arity : Nat
deriving DecidableEq

/-- The id of the type with a key. -/
def TypeKey.id (key : TypeKey) : SymbolId := .ofParts key.ns key.name key.arity

theorem TypeKey.id_inj {key key' : TypeKey} (hname : Text.isIdentifier key.name.toList)
    (hname' : Text.isIdentifier key'.name.toList) : key.id = key'.id ↔ key = key' := by
  obtain ⟨ns, name, arity⟩ := key
  obtain ⟨ns', name', arity'⟩ := key'
  rw [mk.injEq]
  exact SymbolId.ofParts_inj hname hname'

/-- The key of a symbol. -/
def Symbol.key (symbol : Symbol) : TypeKey := ⟨symbol.ns, symbol.name, symbol.arity⟩

/-- The key of a participant. -/
def Participant.key (p : Participant) : TypeKey := ⟨p.ns, p.name, p.typeParameters.length⟩

/-! ### Namespaces -/

namespace Namespace

variable {segments segments' : List String}

/-- Namespaces inside one another are one namespace with the segments of all. -/
theorem foldl_child_join (outer inner : List String) :
    inner.foldl child (join outer) = join (outer ++ inner) := by
  rw [← foldl_child_global, ← foldl_child_global, List.foldl_append]

/-- The namespace of segments is the one with the dotted name that joins them. -/
theorem ofName_intercalate (h : ∀ segment ∈ segments, Text.isIdentifier segment.toList) :
    ofName (".".intercalate segments) = join segments := by
  cases segments with
  | nil => rfl
  | cons first later =>
    obtain ⟨c, s, hname, -⟩ :=
      Reference.exists_cons_of_segments (List.cons_ne_nil first later) h
    have hne : (".".intercalate (first :: later)).isEmpty = false := by
      rw [Bool.eq_false_iff, Ne, String.isEmpty_iff, ← String.toList_eq_nil_iff, hname]
      exact List.cons_ne_nil c s
    rw [ofName, hne]
    rfl

/-- The segments of a namespace are known from its name. -/
theorem join_inj (h : ∀ segment ∈ segments, Text.isIdentifier segment.toList)
    (h' : ∀ segment ∈ segments', Text.isIdentifier segment.toList) :
    join segments = join segments' ↔ segments = segments' := by
  refine ⟨fun heq ↦ ?_, congrArg join⟩
  cases segments with
  | nil =>
    cases segments' with
    | nil => rfl
    | cons first' later' => cases heq
  | cons first later =>
    cases segments' with
    | nil => cases heq
    | cons first' later' =>
      have hnames := congrArg Level.segments (named.inj heq)
      rwa [Level.segments_intercalate (List.cons_ne_nil first later) h,
        Level.segments_intercalate (List.cons_ne_nil first' later') h'] at hnames

end Namespace

/-! ### What is written around a declaration -/

/-- The segments of namespaces one inside the other, of which the first is the outermost. -/
def Enclosure.path (around : List Enclosure) : List String :=
  around.flatMap fun e ↦ Level.segments e.name

/-- The segments of namespaces have the name that the names of the namespaces have. -/
theorem Enclosure.join_path (around : List Enclosure) :
    Namespace.join (path around) = .join (around.map (·.name)) := by
  rw [← Namespace.foldl_child_global, ← Namespace.foldl_child_global]
  generalize Namespace.global = outer
  induction around generalizing outer with
  | nil => rfl
  | cons e around ih =>
    rw [path, List.flatMap_cons, List.foldl_append, Level.foldl_child_segments, List.map_cons,
      List.foldl_cons]
    exact ih _

theorem Member.scopeNames_subset {ms : List Member} {m : Member} (h : m ∈ ms) :
    m.scopeNames ⊆ scopeNamesOf ms := by
  induction ms with
  | nil => cases h
  | cons first later ih =>
    rw [scopeNamesOf]
    rcases List.mem_cons.1 h with rfl | h
    · exact List.subset_append_left _ _
    · exact List.Subset.trans (ih h) (List.subset_append_right _ _)

namespace StandsInside

variable {ms : List Member} {around : List Enclosure} {d : TypeDeclaration}

theorem mem_typesOf (h : StandsInside ms around d) : d ∈ typesOf ms := by
  rw [← map_declaration_placedOf 0 [⟨.global, []⟩]]
  exact List.mem_map.2 ⟨_, h.mem_placedOf 0 _, rfl⟩

/-- The segments around a declaration are identifiers where the names of namespaces are dotted. -/
theorem isIdentifier_of_mem_path (h : StandsInside ms around d)
    (hnames : ∀ name ∈ scopeNamesOf ms,
      IsDotted (fun word ↦ Text.isIdentifier word.toList) name) :
    ∀ segment ∈ Enclosure.path around, Text.isIdentifier segment.toList := by
  induction h with
  | type => exact List.forall_mem_nil _
  | scope here _ ih =>
    have hinner := fun name hname ↦ hnames name (Member.scopeNames_subset here hname)
    obtain ⟨⟨words, hne, hwords, hname⟩, hmembers⟩ := List.forall_mem_cons.1 hinner
    rw [Enclosure.path, List.flatMap_cons, hname, Level.segments_intercalate hne hwords]
    exact List.forall_mem_append.2 ⟨hwords, ih hmembers⟩

end StandsInside

/-! ### Declarations of trees -/

namespace Compilation

/-- The numbered tree declares a type inside the namespace with the given segments. -/
def DeclaresIn (c : Compilation) (number : Nat) (path : List String) (d : TypeDeclaration) : Prop :=
  ∃ tree around, c.tree? number = some tree ∧ StandsInside tree.file.members around d ∧
    path = Enclosure.path around

/-- The keys of the qualifying declarations, trees in order, each in source order. -/
def keys (c : Compilation) (qualifying : Site → Bool) : List TypeKey :=
  ((c.sites.filter qualifying).filterMap (·.symbol? c.model)).map (·.key)

/-- The participants that the qualifying declarations show, in the same order. -/
def shown (c : Compilation) (qualifying : Site → Bool) : List Participant :=
  (c.sites.filter qualifying).filterMap (·.participant? c.model)

/-- Every type of a tree is declared inside some namespace. -/
theorem exists_declaresIn {c : Compilation} {number : Nat} {tree : SourceTree}
    (htree : c.tree? number = some tree) {d : TypeDeclaration} (hd : d ∈ tree.types) :
    ∃ path, c.DeclaresIn number path d := by
  rw [SourceTree.types, SourceFile.types, ← map_declaration_placedOf number [⟨.global, []⟩]] at hd
  obtain ⟨e, he, rfl⟩ := List.mem_map.1 hd
  obtain ⟨around, hinside, -⟩ := exists_standsInside he
  exact ⟨_, tree, around, htree, hinside, rfl⟩

theorem exists_declaresIn_of_mem_sites {c : Compilation} {s : Site} (hs : s ∈ c.sites) :
    ∃ path, c.DeclaresIn s.number path s.declaration := by
  obtain ⟨⟨tree, number⟩, htree, hs⟩ := List.mem_flatMap.1 hs
  obtain ⟨d, hd, rfl⟩ := List.mem_map.1 hs
  exact exists_declaresIn (List.mem_zipIdx_iff_getElem?.1 htree) hd

section

variable {sources : List (String × String)} {trees : List SourceTree}
  (h : parseAll sources = .ok trees)

include h

namespace DeclaresIn

variable {number : Nat} {path : List String} {d : TypeDeclaration}
  (hd : (ofTrees trees).DeclaresIn number path d)

include hd

/-- The symbol of a declaration is made from what is written. -/
theorem declaredSymbol?_eq :
    (ofTrees trees).model.declaredSymbol? number d = some (.ofDeclaration (.join path) d) := by
  obtain ⟨tree, around, htree, hinside, rfl⟩ := hd
  rw [Enclosure.join_path]
  exact DeclarationTable.declaredSymbol?_of_standsInside (nodup_ordinal_of_parseAll h) htree hinside

theorem isIdentifier_name : Text.isIdentifier d.name.toList := by
  obtain ⟨tree, around, htree, hinside, rfl⟩ := hd
  exact isIdentifier_name_of_parseAll h tree (List.mem_of_getElem? htree) d hinside.mem_typesOf

theorem isIdentifier_of_mem : ∀ segment ∈ path, Text.isIdentifier segment.toList := by
  obtain ⟨tree, around, htree, hinside, rfl⟩ := hd
  exact hinside.isIdentifier_of_mem_path (isDotted_of_parseAll h tree (List.mem_of_getElem? htree))

end DeclaresIn

/-- **Two declarations have one id exactly if what is written of them agrees.** -/
theorem map_id_declaredSymbol?_eq_iff {number number' : Nat} {path path' : List String}
    {d d' : TypeDeclaration} (hd : (ofTrees trees).DeclaresIn number path d)
    (hd' : (ofTrees trees).DeclaresIn number' path' d') :
    ((ofTrees trees).model.declaredSymbol? number d).map (·.id) =
        ((ofTrees trees).model.declaredSymbol? number' d').map (·.id) ↔
      path = path' ∧ d.name = d'.name ∧ d.arity = d'.arity := by
  rw [hd.declaredSymbol?_eq h, hd'.declaredSymbol?_eq h, Option.map_some, Option.map_some,
    Option.some_inj, ← Namespace.join_inj (hd.isIdentifier_of_mem h) (hd'.isIdentifier_of_mem h)]
  exact SymbolId.ofParts_inj (hd.isIdentifier_name h) (hd'.isIdentifier_name h)

/-! ### The searches -/

/-- The participant that a declaration shows has the key of the symbol, and the id of this key. -/
theorem exists_participant?_of_mem_sites {s : Site} (hs : s ∈ (ofTrees trees).sites) :
    ∃ p symbol, s.participant? (ofTrees trees).model = some p ∧
      s.symbol? (ofTrees trees).model = some symbol ∧ p.key = symbol.key ∧ p.id = p.key.id ∧
      Text.isIdentifier p.key.name.toList := by
  obtain ⟨path, hd⟩ := exists_declaresIn_of_mem_sites hs
  have hsymbol : s.symbol? (ofTrees trees).model =
      some (.ofDeclaration (.join path) s.declaration) := hd.declaredSymbol?_eq h
  exact ⟨_, _, congrArg (Option.map _) hsymbol, hsymbol, rfl, rfl, hd.isIdentifier_name h⟩

theorem map_key_shown (qualifying : Site → Bool) :
    ((ofTrees trees).shown qualifying).map (·.key) = (ofTrees trees).keys qualifying := by
  rw [shown, keys, List.map_filterMap, List.map_filterMap]
  refine List.filterMap_congr fun s hs ↦ ?_
  obtain ⟨p, symbol, hp, hsymbol, hkey, -⟩ :=
    exists_participant?_of_mem_sites h (List.mem_of_mem_filter hs)
  rw [hp, hsymbol, Option.map_some, Option.map_some, hkey]

theorem id_eq_of_mem_shown {qualifying : Site → Bool} {p : Participant}
    (hp : p ∈ (ofTrees trees).shown qualifying) :
    p.id = p.key.id ∧ Text.isIdentifier p.key.name.toList := by
  obtain ⟨s, hs, hshown⟩ := List.mem_filterMap.1 hp
  obtain ⟨p', -, hshown', -, -, hid⟩ :=
    exists_participant?_of_mem_sites h (List.mem_of_mem_filter hs)
  obtain rfl : p' = p := Option.some.inj (hshown'.symm.trans hshown)
  exact hid

/-- **A search finds each key once**: the keys of what it finds are those of the qualifying
declarations, each at its first one. -/
theorem map_key_found (qualifying : Site → Bool) (others : List Site) :
    ((firstOfEach ((ofTrees trees).shown qualifying)).map
        (·.completed (ofTrees trees).model others)).map (·.key) =
      ((ofTrees trees).keys qualifying).eraseDups := by
  -- The accessibility that others state is not part of a key.
  have hcompleted : Participant.key ∘ Participant.completed (ofTrees trees).model others =
      Participant.key := rfl
  rw [List.map_map, hcompleted, ← map_key_shown h]
  refine map_firstOfEach fun p hp q hq ↦ ?_
  obtain ⟨hpid, hpname⟩ := id_eq_of_mem_shown h hp
  obtain ⟨hqid, hqname⟩ := id_eq_of_mem_shown h hq
  rw [hpid, hqid]
  exact TypeKey.id_inj hpname hqname

/-! ### The table -/

theorem id_eq_of_mem_declaredSymbols {symbol : Symbol}
    (hsymbol : symbol ∈ (ofTrees trees).declaredSymbols) :
    symbol.id = symbol.key.id ∧ Text.isIdentifier symbol.key.name.toList := by
  obtain ⟨⟨number, d⟩, hdeclared, hsymbol⟩ := List.mem_filterMap.1 hsymbol
  obtain ⟨⟨tree, number'⟩, htree, hmem⟩ := List.mem_flatMap.1 hdeclared
  obtain ⟨_, hd, ⟨⟩⟩ := List.mem_map.1 hmem
  have htree : (ofTrees trees).tree? number = some tree := List.mem_zipIdx_iff_getElem?.1 htree
  obtain ⟨path, hd⟩ := exists_declaresIn htree hd
  obtain rfl := Option.some.inj ((hd.declaredSymbol?_eq h).symm.trans hsymbol)
  exact ⟨rfl, hd.isIdentifier_name h⟩

/-- The types of the table are those of the keys that are declared. -/
theorem ids_ofTrees :
    (DeclarationTable.ofTrees trees).ids =
      ((ofTrees trees).declaredSymbols.map (·.key)).eraseDups.map (·.id) := by
  have hids : (ofTrees trees).declaredSymbols.map (·.id) =
      ((ofTrees trees).declaredSymbols.map (·.key)).map (·.id) := by
    rw [List.map_map]
    exact List.map_congr_left fun symbol hmem ↦ (id_eq_of_mem_declaredSymbols h hmem).1
  have hentries : (DeclarationTable.ofTrees trees).entries.map (·.symbol.id) =
      (ofTrees trees).declaredSymbols.map (·.id) := by
    rw [← DeclarationTable.map_symbol_entries (nodup_ordinal_of_parseAll h), List.map_map]
    rfl
  rw [DeclarationTable.ids, hentries, hids]
  refine (map_eraseDups fun key hkey key' hkey' heq ↦ ?_).symm
  obtain ⟨symbol, hmem, rfl⟩ := List.mem_map.1 hkey
  obtain ⟨symbol', hmem', rfl⟩ := List.mem_map.1 hkey'
  exact (TypeKey.id_inj (id_eq_of_mem_declaredSymbols h hmem).2
    (id_eq_of_mem_declaredSymbols h hmem').2).1 heq

/-- The table gives for a key the symbol that its first declaration declares. -/
theorem symbol?_id {key : TypeKey} (hname : Text.isIdentifier key.name.toList) :
    (DeclarationTable.ofTrees trees).symbol? key.id =
      (ofTrees trees).declaredSymbols.find? (·.key = key) := by
  have hfind : (ofTrees trees).declaredSymbols.find? (·.key = key) =
      (ofTrees trees).declaredSymbols.find? (·.id = key.id) := by
    refine List.find?_congr fun symbol hmem ↦ ?_
    obtain ⟨hid, hsymbol⟩ := id_eq_of_mem_declaredSymbols h hmem
    rw [hid, decide_eq_decide]
    exact (TypeKey.id_inj hsymbol hname).symm
  rw [hfind, ← DeclarationTable.map_symbol_entries (nodup_ordinal_of_parseAll h), List.find?_map]
  rfl

end

/-! ### Merging -/

/-- The declarations of trees belong to one type exactly if the namespaces around them have the same
segments, they have the same name, and they have equally many type parameters. -/
structure MergesByKey (trees : List SourceTree) : Prop where
  /-- Every type is declared inside some namespace. -/
  declared : ∀ number tree, (ofTrees trees).tree? number = some tree → ∀ d ∈ tree.types,
    ∃ path, (ofTrees trees).DeclaresIn number path d
  /-- Its symbol has the key that is written, and the id of this key. -/
  symbol : ∀ number path d, (ofTrees trees).DeclaresIn number path d →
    ∃ symbol, (ofTrees trees).model.declaredSymbol? number d = some symbol ∧
      symbol.key = ⟨.ofName (".".intercalate path), d.name, d.arity⟩ ∧ symbol.id = symbol.key.id
  /-- Two declarations have one id exactly if what is written of them agrees. -/
  id_eq_iff : ∀ number path d number' path' d', (ofTrees trees).DeclaresIn number path d →
    (ofTrees trees).DeclaresIn number' path' d' →
      (((ofTrees trees).model.declaredSymbol? number d).map (·.id) =
          ((ofTrees trees).model.declaredSymbol? number' d').map (·.id) ↔
        path = path' ∧ d.name = d'.name ∧ d.arity = d'.arity)
  /-- The table has one type for each key. -/
  ids : (DeclarationTable.ofTrees trees).ids =
    ((ofTrees trees).declaredSymbols.map (·.key)).eraseDups.map (·.id)
  /-- It is the type that the first declaration with the key declares. -/
  symbol?_id : ∀ key : TypeKey, Text.isIdentifier key.name.toList →
    (DeclarationTable.ofTrees trees).symbol? key.id =
      (ofTrees trees).declaredSymbols.find? (·.key = key)
  /-- There is one root for each key of a marked interface, in the order of first declarations. -/
  roots : (ofTrees trees).roots.map (·.key) =
    ((ofTrees trees).keys (·.isRootFragment (ofTrees trees).model)).eraseDups
  /-- There is one implementing type for each key of a declaration that lists the root. -/
  implementors : ∀ matching root, ((ofTrees trees).implementors matching root).map (·.key) =
    ((ofTrees trees).keys (·.isTypeFragment matching (ofTrees trees).model root)).eraseDups

theorem mergesByKey_of_parseAll {sources : List (String × String)} {trees : List SourceTree}
    (h : parseAll sources = .ok trees) : MergesByKey trees where
  declared _ _ htree _ hd := exists_declaresIn htree hd
  symbol _ path _ hd := by
    refine ⟨_, hd.declaredSymbol?_eq h, ?_, rfl⟩
    rw [Namespace.ofName_intercalate (hd.isIdentifier_of_mem h)]
    rfl
  id_eq_iff _ _ _ _ _ _ hd hd' := map_id_declaredSymbol?_eq_iff h hd hd'
  ids := ids_ofTrees h
  symbol?_id _ hname := Compilation.symbol?_id h hname
  roots := map_key_found h _ _
  implementors _ _ := map_key_found h _ _

end Compilation

namespace SymbolId

/-- **Ids are unambiguous.** Types whose names are identifiers have one id only if they have one
namespace, one name and one number of type parameters. A namespace that is built segment by segment,
from the global one or inside another one, is the one with the dotted name. So the declarations of
files that are read belong to one type exactly if all three agree. -/
theorem unambiguous :
    (∀ (ns ns' : Namespace) (name name' : String) (arity arity' : Nat),
      Text.isIdentifier name.toList → Text.isIdentifier name'.toList →
      ofParts ns name arity = ofParts ns' name' arity' →
        ns = ns' ∧ name = name' ∧ arity = arity') ∧
    (∀ outer inner : List String,
      (∀ segment ∈ outer ++ inner, Text.isIdentifier segment.toList) →
      inner.foldl Namespace.child (.ofName (".".intercalate outer)) =
        .ofName (".".intercalate (outer ++ inner))) ∧
    ∀ sources trees, parseAll sources = .ok trees → Compilation.MergesByKey trees := by
  refine ⟨fun _ _ _ _ _ _ hname hname' heq ↦ (ofParts_inj hname hname').1 heq, ?_,
    fun _ _ h ↦ Compilation.mergesByKey_of_parseAll h⟩
  intro outer inner hsegments
  have houter : ∀ segment ∈ outer, Text.isIdentifier segment.toList :=
    fun segment hmem ↦ hsegments segment (List.mem_append_left inner hmem)
  rw [Namespace.ofName_intercalate houter, Namespace.ofName_intercalate hsegments,
    Namespace.foldl_child_join]

/-- A type in two files, in a namespace that is written in two ways, and types that differ from it
in the namespace or in the number of type parameters. -/
def spreadSample : List (String × String) :=
  [("Marker.cs", "global using VisitorGenerator; namespace VisitorGenerator; " ++
    "class VisitorNodeAttribute;"),
   ("A.cs", "namespace P.Q \x7b [VisitorNode] interface I; class A<T> : I; \x7d " ++
    "namespace P \x7b class A<T> : I; \x7d"),
   ("B.cs", "namespace P \x7b namespace Q \x7b class A : I; [VisitorNode] interface I; " ++
    "class A<U> : I; \x7d \x7d")]

/-- The root and one of the types have a declaration in each of the files. -/
theorem unambiguous_spreadSample :
    (ofParts (.named "P.Q") "A" 1 = ofParts ((Namespace.global.child "P").child "Q") "A" 1 ∧
      Namespace.named "P.Q" = (Namespace.global.child "P").child "Q") ∧
    ["Q"].foldl Namespace.child (.ofName "P") = .ofName "P.Q" ∧
    ∃ trees, parseAll spreadSample = .ok trees ∧
      let c := Compilation.ofTrees trees
      c.roots.map (·.key) = [⟨.named "P.Q", "I", 0⟩] ∧
      (∀ root ∈ c.roots, (c.implementors .syntactic root).map (·.key) =
        [⟨.named "P.Q", "A", 1⟩, ⟨.named "P", "A", 1⟩, ⟨.named "P.Q", "A", 0⟩]) ∧
      ∃ d d' path, c.DeclaresIn 1 path d ∧ c.DeclaresIn 2 path d' ∧
        (c.model.declaredSymbol? 1 d).map (·.id) = some ⟨"P.Q.A`1"⟩ ∧
        (c.model.declaredSymbol? 2 d').map (·.id) = some ⟨"P.Q.A`1"⟩ := by
  obtain ⟨hinj, hchild, hmerges⟩ := unambiguous
  have hids : ofParts (.named "P.Q") "A" 1 =
      ofParts ((Namespace.global.child "P").child "Q") "A" 1 := by decide
  have hread : ∃ trees ∈ (parseAll spreadSample).toOption,
      let c := Compilation.ofTrees trees
      c.keys (·.isRootFragment c.model) = [⟨.named "P.Q", "I", 0⟩, ⟨.named "P.Q", "I", 0⟩] ∧
      (∀ root ∈ c.roots, c.keys (·.isTypeFragment .syntactic c.model root) =
        [⟨.named "P.Q", "A", 1⟩, ⟨.named "P", "A", 1⟩, ⟨.named "P.Q", "A", 0⟩,
          ⟨.named "P.Q", "A", 1⟩]) ∧
      ∃ tree ∈ trees[1]?, ∃ tree' ∈ trees[2]?, ∃ d ∈ tree.types[1]?, ∃ d' ∈ tree'.types[2]?,
        (c.model.declaredSymbol? 1 d).map (·.id) = some ⟨"P.Q.A`1"⟩ ∧
        (c.model.declaredSymbol? 2 d').map (·.id) = some ⟨"P.Q.A`1"⟩ := by decide +kernel
  obtain ⟨trees, htrees, hroots, htypes, tree, htree, tree', htree', d, hd, d', hd', hid, hid'⟩ :=
    hread
  have hok := eq_ok_of_toOption htrees
  have h := hmerges _ _ hok
  obtain ⟨path, hpath⟩ := h.declared 1 tree htree d (List.mem_of_getElem? hd)
  obtain ⟨path', hpath'⟩ := h.declared 2 tree' htree' d' (List.mem_of_getElem? hd')
  -- That both are declared in one namespace follows from their ids.
  obtain ⟨rfl, -⟩ := (h.id_eq_iff _ _ _ _ _ _ hpath hpath').1 (hid.trans hid'.symm)
  refine ⟨⟨hids, (hinj _ _ _ _ _ _ (by decide) (by decide) hids).1⟩,
    hchild ["P"] ["Q"] (by decide), trees, hok, ?_, fun root hroot ↦ ?_, d, d', path, hpath, hpath',
    hid, hid'⟩
  · rw [h.roots, hroots]
    decide
  · rw [h.implementors, htypes root hroot]
    decide

end SymbolId

end DoubleDispatch
