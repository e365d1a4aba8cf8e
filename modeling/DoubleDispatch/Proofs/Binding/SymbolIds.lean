import DoubleDispatch.Proofs.Binding.Lookup
import DoubleDispatch.Proofs.Parsing.Ordinals
import DoubleDispatch.Proofs.Parsing.Sections
import DoubleDispatch.Proofs.Token.Tiling

/-!
# What an id says

An id is one text, but nothing of what it was made from is lost. The name of a type is an
identifier (`isIdentifier_name_of_parseAll`), so the last dot of an id stands before the name, and a
backquote stands only before the number of type parameters. Types with one id therefore have one
namespace, one name and one number of type parameters (`SymbolId.ofParts_inj`).
-/

namespace DoubleDispatch

/-! ### Names -/

/-- Every type of a file that is read has a name. -/
theorem SourceTree.isIdentifier_name_of_parse {path source : String} {tree : SourceTree}
    (h : SourceTree.parse path source = .ok tree) :
    ∀ d ∈ tree.types, Text.isIdentifier d.name.toList := by
  obtain ⟨tokens, b, htokens, -, hreads, hfile⟩ :=
    SourceFile.exists_reads_of_parse (file_of_parse h)
  rw [SourceTree.types, hfile]
  intro d hd
  obtain ⟨t, ht, hkind, -⟩ := hreads.exists_identifier d hd
  exact isIdentifier_of_tokenize htokens ht hkind

theorem isIdentifier_name_of_parseAll {sources : List (String × String)} {trees : List SourceTree}
    (h : parseAll sources = .ok trees) :
    ∀ tree ∈ trees, ∀ d ∈ tree.types, Text.isIdentifier d.name.toList := by
  intro tree htree
  obtain ⟨s, -, hread⟩ := exists_of_mem_right (forall₂_of_parseAll h) htree
  exact SourceTree.isIdentifier_name_of_parse hread

/-! ### Ids -/

/-- The last of the separators is known from the text alone. -/
theorem append_cons_inj_of_notMem {α : Type} {sep : α} {front back front' back' : List α}
    (hback : sep ∉ back) (hback' : sep ∉ back')
    (h : front ++ sep :: back = front' ++ sep :: back') : front = front' ∧ back = back' := by
  have hnil {middle behind behind' : List α} (hbehind : sep ∉ behind)
      (h : sep :: behind = middle ++ sep :: behind') : middle = [] := by
    rcases List.cons_eq_append_iff.1 h with ⟨hmiddle, -⟩ | ⟨middle', -, rfl⟩
    · exact hmiddle
    · simp at hbehind
  rcases List.append_eq_append_iff.1 h with ⟨middle, rfl, hmiddle⟩ | ⟨middle, rfl, hmiddle⟩
  · obtain rfl := hnil hback hmiddle
    exact ⟨(List.append_nil _).symm, (List.cons.inj hmiddle).2⟩
  · obtain rfl := hnil hback' hmiddle
    exact ⟨List.append_nil _, (List.cons.inj hmiddle).2.symm⟩

section

variable {name name' : String} {arity arity' : Nat}

/-- Behind the name of a generic type stand the backquote and digits. -/
theorem toList_arityName (h : arity ≠ 0) :
    (arityName name arity).toList = name.toList ++ Char.ofNat 96 :: Nat.toDigits 10 arity := by
  rw [arityName, if_neg h]
  simp

theorem isDigit_of_mem_toDigits {c : Char} (h : c ∈ Nat.toDigits 10 arity) : c.isDigit :=
  Nat.isDigit_of_mem_toDigits (by decide) (by decide) h

theorem dot_notMem_arityName (hname : Text.isIdentifier name.toList) :
    '.' ∉ (arityName name arity).toList := by
  have hdot : '.' ∉ name.toList := Text.notMem_of_isIdentifier hname (by decide)
  by_cases harity : arity = 0
  · rwa [arityName, if_pos harity]
  · rw [toList_arityName harity, List.mem_append, List.mem_cons]
    rintro (hmem | hmem | hmem)
    · exact hdot hmem
    · exact absurd hmem (by decide)
    · exact absurd (isDigit_of_mem_toDigits hmem) (by decide)

theorem arityName_inj (hname : Text.isIdentifier name.toList)
    (hname' : Text.isIdentifier name'.toList) (h : arityName name arity = arityName name' arity') :
    name = name' ∧ arity = arity' := by
  have hplain {name name' : String} {arity : Nat} (hname : Text.isIdentifier name.toList)
      (harity : arity ≠ 0) : name ≠ arityName name' arity := by
    intro heq
    have hmark : Char.ofNat 96 ∉ name.toList := Text.notMem_of_isIdentifier hname (by decide)
    rw [heq, toList_arityName harity] at hmark
    simp at hmark
  by_cases harity : arity = 0
  · by_cases harity' : arity' = 0
    · rw [arityName, arityName, if_pos harity, if_pos harity'] at h
      exact ⟨h, harity.trans harity'.symm⟩
    · rw [arityName, if_pos harity] at h
      exact absurd h (hplain hname harity')
  · by_cases harity' : arity' = 0
    · rw [arityName.eq_def name', if_pos harity'] at h
      exact absurd h.symm (hplain hname' harity)
    · have hlists := congrArg String.toList h
      rw [toList_arityName harity, toList_arityName harity'] at hlists
      obtain ⟨hnames, hdigits⟩ := append_cons_inj_of_notMem
        (fun hmem ↦ absurd (isDigit_of_mem_toDigits hmem) (by decide))
        (fun hmem ↦ absurd (isDigit_of_mem_toDigits hmem) (by decide)) hlists
      refine ⟨String.toList_injective hnames, ?_⟩
      rw [← Nat.ofDigitChars_ten_toDigits (n := arity), hdigits, Nat.ofDigitChars_ten_toDigits]

end

/-- **An id says what it is made from.** -/
theorem SymbolId.ofParts_inj {ns ns' : Namespace} {name name' : String} {arity arity' : Nat}
    (hname : Text.isIdentifier name.toList) (hname' : Text.isIdentifier name'.toList) :
    ofParts ns name arity = ofParts ns' name' arity' ↔
      ns = ns' ∧ name = name' ∧ arity = arity' := by
  refine ⟨fun h ↦ ?_, fun ⟨hns, hn, ha⟩ ↦ by rw [hns, hn, ha]⟩
  have htext : ns.qualify (arityName name arity) = ns'.qualify (arityName name' arity') :=
    congrArg SymbolId.text h
  have hdot : '.' ∉ (arityName name arity).toList := dot_notMem_arityName hname
  have hdot' : '.' ∉ (arityName name' arity').toList := dot_notMem_arityName hname'
  have hqualified (outer last : String) : '.' ∈ ((Namespace.named outer).qualify last).toList := by
    simp [Namespace.qualify]
  cases ns with
  | global =>
    cases ns' with
    | global => exact ⟨rfl, arityName_inj hname hname' htext⟩
    | named outer =>
      have htext : arityName name arity = _ := htext
      rw [htext] at hdot
      exact absurd (hqualified outer _) hdot
  | named outer =>
    cases ns' with
    | global =>
      have htext : _ = arityName name' arity' := htext
      rw [← htext] at hdot'
      exact absurd (hqualified outer _) hdot'
    | named outer' =>
      have hlists := congrArg String.toList htext
      simp only [Namespace.qualify, String.toList_append, List.append_assoc] at hlists
      obtain ⟨houter, hlast⟩ := append_cons_inj_of_notMem hdot hdot' hlists
      rw [String.toList_injective houter]
      exact ⟨rfl, arityName_inj hname hname' (String.toList_injective hlast)⟩

end DoubleDispatch
