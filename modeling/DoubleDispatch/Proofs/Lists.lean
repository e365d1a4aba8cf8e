import Mathlib.Data.List.Forall2

/-!
# Lists that correspond

Two lists correspond if their elements are related one by one (`List.Forall₂`). Then searches,
selections and questions to their elements come to the same wherever related elements give the same
answers. Two trees, two token streams and two compilations are compared in this way, and so are
sources and what is read of them.
-/

namespace DoubleDispatch

variable {α β γ : Type} {R : α → β → Prop} {as : List α} {bs : List β}

/-! ### Partners -/

/-- An element of the first list has its partner at the same place. -/
theorem exists_getElem?_of_mem (h : List.Forall₂ R as bs) {a : α} (ha : a ∈ as) :
    ∃ (n : Nat) (b : β), bs[n]? = some b ∧ R a b := by
  induction h with
  | nil => cases ha
  | @cons _ b _ _ hfirst _ ih =>
    rcases List.mem_cons.1 ha with rfl | ha
    · exact ⟨0, b, rfl, hfirst⟩
    · obtain ⟨n, b, hb, hab⟩ := ih ha
      exact ⟨n + 1, b, hb, hab⟩

theorem exists_of_mem_left (h : List.Forall₂ R as bs) {a : α} (ha : a ∈ as) : ∃ b ∈ bs, R a b := by
  obtain ⟨n, b, hb, hab⟩ := exists_getElem?_of_mem h ha
  exact ⟨b, List.mem_of_getElem? hb, hab⟩

theorem exists_of_mem_right (h : List.Forall₂ R as bs) {b : β} (hb : b ∈ bs) : ∃ a ∈ as, R a b :=
  exists_of_mem_left h.flip hb

/-- If each element has a partner, there is a list of partners. -/
theorem exists_forall₂ (h : ∀ a ∈ as, ∃ b, R a b) : ∃ bs, List.Forall₂ R as bs := by
  induction as with
  | nil => exact ⟨[], .nil⟩
  | cons a as ih =>
    obtain ⟨hfirst, hlater⟩ := List.forall_mem_cons.1 h
    obtain ⟨b, hb⟩ := hfirst
    obtain ⟨bs, hbs⟩ := ih hlater
    exact ⟨b :: bs, .cons hb hbs⟩

/-- Partners can be exchanged one by one. -/
theorem exists_forall₂_of_forall₂ {S : α → γ → Prop} {T : β → γ → Prop}
    (h : List.Forall₂ R as bs) (hpartner : ∀ a ∈ as, ∀ b, R a b → ∃ c, S a c ∧ T b c) :
    ∃ cs, List.Forall₂ S as cs ∧ List.Forall₂ T bs cs := by
  induction h with
  | nil => exact ⟨[], .nil, .nil⟩
  | @cons a b _ _ hab _ ih =>
    obtain ⟨hfirst, hlater⟩ := List.forall_mem_cons.1 hpartner
    obtain ⟨c, hac, hbc⟩ := hfirst b hab
    obtain ⟨cs, has, hbs⟩ := ih hlater
    exact ⟨c :: cs, .cons hac has, .cons hbc hbs⟩

/-- Where the first list falls into two parts, so does the second. -/
theorem exists_of_forall₂_append {as' : List α} (h : List.Forall₂ R (as ++ as') bs) :
    ∃ front back, bs = front ++ back ∧ List.Forall₂ R as front ∧ List.Forall₂ R as' back := by
  induction as generalizing bs with
  | nil => exact ⟨[], bs, rfl, .nil, h⟩
  | cons a as ih =>
    obtain ⟨b, later, hab, hrest, rfl⟩ := List.forall₂_cons_left_iff.1 h
    obtain ⟨front, back, rfl, hfront, hback⟩ := ih hrest
    exact ⟨b :: front, back, rfl, .cons hab hfront, hback⟩

theorem forall₂_zipIdx (h : List.Forall₂ R as bs) (start : Nat) :
    List.Forall₂ (fun p q : _ × Nat ↦ R p.1 q.1 ∧ q.2 = p.2) (as.zipIdx start)
      (bs.zipIdx start) := by
  induction h generalizing start with
  | nil => exact .nil
  | cons hab _ ih => exact .cons ⟨hab, rfl⟩ (ih (start + 1))

/-! ### Answers -/

theorem map_eq_of_forall₂ (h : List.Forall₂ R as bs) {f : α → γ} {g : β → γ}
    (hf : ∀ a b, R a b → g b = f a) : bs.map g = as.map f := by
  induction h with
  | nil => rfl
  | cons hab _ ih => rw [List.map_cons, List.map_cons, hf _ _ hab, ih]

theorem any_eq_of_forall₂ (h : List.Forall₂ R as bs) {p : α → Bool} {q : β → Bool}
    (hp : ∀ a b, R a b → q b = p a) : bs.any q = as.any p := by
  induction h with
  | nil => rfl
  | cons hab _ ih => rw [List.any_cons, List.any_cons, hp _ _ hab, ih]

theorem findSome?_eq_of_forall₂ (h : List.Forall₂ R as bs) {f : α → Option γ} {g : β → Option γ}
    (hf : ∀ a b, R a b → g b = f a) : bs.findSome? g = as.findSome? f := by
  induction h with
  | nil => rfl
  | cons hab _ ih => rw [List.findSome?_cons, List.findSome?_cons, hf _ _ hab, ih]

/-- Searches find nothing or partners. -/
theorem find?_cases (h : List.Forall₂ R as bs) {p : α → Bool} {q : β → Bool}
    (hp : ∀ a b, R a b → q b = p a) :
    (as.find? p = none ∧ bs.find? q = none) ∨
      ∃ a b, as.find? p = some a ∧ bs.find? q = some b ∧ R a b := by
  induction h with
  | nil => exact .inl ⟨rfl, rfl⟩
  | @cons a b as bs hab _ ih =>
    rw [List.find?_cons, List.find?_cons, hp a b hab]
    cases p a with
    | true => exact .inr ⟨a, b, rfl, rfl, hab⟩
    | false => exact ih

/-- What is picked from the lists is the same. -/
theorem filterMap_filter_eq (h : List.Forall₂ R as bs) {p : α → Bool} {q : β → Bool}
    (hp : ∀ a b, R a b → q b = p a) {f : α → Option γ} {g : β → Option γ}
    (hf : ∀ a b, R a b → g b = f a) :
    (bs.filter q).filterMap g = (as.filter p).filterMap f := by
  induction h with
  | nil => rfl
  | @cons a b as bs hab _ ih =>
    rw [List.filter_cons, List.filter_cons, hp a b hab]
    split
    · rw [List.filterMap_cons, List.filterMap_cons, hf a b hab, ih]
    · exact ih

/-! ### Steps that may fail -/

section

variable {ε : Type} {f g : α → Except ε β}

/-- Steps in a row succeed if each of them does. -/
theorem mapM_eq_ok_iff : as.mapM f = .ok bs ↔ List.Forall₂ (fun a b ↦ f a = .ok b) as bs := by
  induction as generalizing bs with
  | nil =>
    rw [List.mapM_nil, List.forall₂_nil_left_iff]
    exact ⟨fun h ↦ (Except.ok.inj h).symm, fun h ↦ congrArg Except.ok h.symm⟩
  | cons a as ih =>
    rw [List.mapM_cons, List.forall₂_cons_left_iff]
    cases hf : f a with
    | error e =>
      refine ⟨nofun, ?_⟩
      rintro ⟨_, _, ⟨⟩, -⟩
    | ok b =>
      cases has : as.mapM f with
      | error e =>
        refine ⟨nofun, ?_⟩
        rintro ⟨_, later, -, hlater, -⟩
        rw [ih.2 hlater] at has
        cases has
      | ok later =>
        constructor
        · intro h
          exact ⟨b, later, rfl, ih.1 has, (Except.ok.inj h).symm⟩
        · rintro ⟨_, later', ⟨⟩, hlater, rfl⟩
          rw [ih.2 hlater] at has
          cases has
          rfl

end

end DoubleDispatch
