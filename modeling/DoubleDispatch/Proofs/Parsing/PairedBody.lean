import DoubleDispatch.Proofs.Parsing.Items
import DoubleDispatch.Proofs.Parsing.PairedDeclaration

/-!
# Bodies side by side

A body is read on both sides, item by item (`Pairing.Beside.reads`). For this the parsers that look
for a directive or a declaration have to fail on the other side where they fail on this one. They do
if they cannot look beyond the tail, because what stands before it ends like an item
(`Pairing.Guarded`).
-/

namespace DoubleDispatch

namespace Pairing

variable {P : Pairing} {s s' t : Stream}

/-! ### Where parsers fail on both sides -/

/-- There are no tails, or what stands before the left one is passed over and ends like an item. -/
def Guarded (P : Pairing) (s : Stream) : Prop :=
  (P.leftTail = [] ∧ P.rightTail = []) ∨
    ∃ front strays, s.ahead = front ++ P.leftTail ∧ Passage strays front ∧ EndsItem front

/-- Where the tail is guarded it has not been reached. -/
theorem Guarded.before (h : P.Guarded s) : P.Before s := by
  rcases h with hnone | ⟨front, strays, hahead, -, hends⟩
  · exact .inl hnone
  · obtain ⟨t, front, rfl⟩ := List.exists_cons_of_ne_nil (hends.ne_nil)
    exact .inr ⟨t, front, hahead⟩

/-- The tail is guarded from any stream before. -/
theorem Guarded.of_passes (h : P.Guarded t) (hst : ∃ strays, s.Passes t strays) : P.Guarded s := by
  rcases h with hnone | ⟨front, strays, hahead, hpassage, hends⟩
  · exact .inl hnone
  · obtain ⟨_, taken, htaken, hpassage'⟩ := hst
    exact .inr ⟨taken ++ front, _, by rw [htaken, hahead, List.append_assoc],
      hpassage'.append hpassage, hends.behind taken⟩

/-- What is passed over on one side is passed over on the other. -/
theorem exists_passage_of_forall₂ {strays front front' : List Token} (h : Passage strays front)
    (hmeets : List.Forall₂ P.Meets front front') : ∃ strays', Passage strays' front' := by
  induction h generalizing front' with
  | nil =>
    obtain rfl := List.forall₂_nil_left_iff.1 hmeets
    exact ⟨[], .nil⟩
  | plain hplain _ ih =>
    obtain ⟨t', later', hmeet, hlater, rfl⟩ := List.forall₂_cons_left_iff.1 hmeets
    obtain ⟨strays', hpassage⟩ := ih hlater
    exact ⟨strays', .plain (by rwa [hmeet.kind]) hpassage⟩
  | stray hstray _ ih =>
    obtain ⟨t', later', hmeet, hlater, rfl⟩ := List.forall₂_cons_left_iff.1 hmeets
    obtain ⟨strays', hpassage⟩ := ih hlater
    exact ⟨_, .stray (by rwa [hmeet.kind]) hpassage⟩
  | group hgroup _ ih =>
    obtain ⟨group', later', rfl, hgroups, hlater⟩ := exists_of_forall₂_append hmeets
    obtain ⟨strays', hpassage⟩ := ih hlater
    exact ⟨strays', .group (Beside.isGroup_of_forall₂ hgroup hgroups) hpassage⟩

/-- What ends like an item on one side does so on the other. -/
theorem endsItem_of_forall₂ {front front' : List Token} (h : EndsItem front)
    (hmeets : List.Forall₂ P.Meets front front') : EndsItem front' := by
  obtain ⟨inner, last, rfl, hstop⟩ := h
  obtain ⟨inner', back', rfl, -, hback⟩ := exists_of_forall₂_append hmeets
  obtain ⟨last', none', hlast, hnone, rfl⟩ := List.forall₂_cons_left_iff.1 hback
  obtain rfl := List.forall₂_nil_left_iff.1 hnone
  exact ⟨inner', last', rfl, by rwa [hlast.kind]⟩

/-- The tail is guarded on both sides. -/
theorem Guarded.swap (hs : P.Guarded s) (h : P.Beside s s') : P.swap.Guarded s' := by
  rcases hs with ⟨hleft, hright⟩ | ⟨front, strays, hahead, hpassage, hends⟩
  · exact .inl ⟨hright, hleft⟩
  · obtain ⟨front₁, front', hfront, hfront', hmeets⟩ := h
    obtain rfl : front = front₁ := List.append_cancel_right (hahead.symm.trans hfront)
    obtain ⟨strays', hpassage'⟩ := exists_passage_of_forall₂ hpassage hmeets
    exact .inr ⟨front', strays', hfront', hpassage', endsItem_of_forall₂ hends hmeets⟩

/-- A directive that starts before the tail ends before it. -/
theorem Guarded.upTo_using? (hs : P.Guarded s) {source : List Char} {u : Parsed UsingDirective}
    (hu : s.using? source = some u) : P.UpTo u.rest := by
  rcases hs with hnone | ⟨front, strays, hahead, -, inner, last, rfl, hstop⟩
  · exact Before.upTo (.inl hnone)
  · obtain ⟨mark, ⟨taken, htaken, hinner⟩, hsemicolon, hmark⟩ := Stream.exists_takes_using? hu
    obtain ⟨semicolon, hrest, -⟩ := Stream.exists_ahead_eq (s := mark) (by rw [hsemicolon]; nofun)
    rw [← hmark] at hrest
    have heq : inner ++ [last] ++ P.leftTail = taken ++ [semicolon] ++ u.rest.ahead := by
      rw [← hahead, htaken, hrest]
      simp
    rcases List.append_eq_append_iff.1 heq with ⟨more, hfront, hmore⟩ | ⟨more, -, hmore⟩
    · by_cases hnone : more = []
      · rw [hnone] at hmore
        exact ⟨[], hmore⟩
      · -- Otherwise the last token before the tail is one of those before the semicolon.
        obtain ⟨more, end', rfl⟩ := List.eq_nil_or_concat more |>.resolve_left hnone
        rw [List.concat_eq_append, ← List.append_assoc] at hfront
        obtain ⟨rfl, -⟩ := List.append_inj' hfront.symm rfl
        exact absurd hstop (hinner last (by simp)).not_isStop
    · exact ⟨more, hmore.symm⟩

/-- What is read of a header that starts before the tail ends before it. -/
theorem Guarded.before_headerStart? (hs : P.Guarded s) {source : List Char}
    {header : Parsed Stream.HeaderStart} (hheader : s.headerStart? source = some header) :
    P.Before header.rest := by
  rcases hs with hnone | ⟨front, strays, hahead, hpassage, hends⟩
  · exact .inl hnone
  · obtain ⟨groups, words, htaken, hgroups, hwords⟩ :=
      Stream.exists_groups_of_headerStart? hheader
    have hnot {more : List Token} (heq : front ++ more = groups.flatten ++ words) : False := by
      obtain ⟨inner, last, hlast, hstop⟩ := hends
      obtain ⟨inner', last', hlast', hkind⟩ :=
        hpassage.exists_last hgroups hwords (by rw [hlast]; simp) heq
      obtain ⟨-, heq⟩ := List.append_inj' (hlast.symm.trans hlast') rfl
      obtain rfl := List.singleton_inj.1 heq
      rcases hstop with hstop | hstop | hstop <;>
        (rw [hstop] at hkind; rcases hkind with hkind | hkind <;> cases hkind)
    rw [hahead, ← List.append_assoc] at htaken
    rcases List.append_eq_append_iff.1 htaken with ⟨more, hmore, -⟩ | ⟨more, hmore, hrest⟩
    · exact (hnot hmore.symm).elim
    · cases more with
      | nil => exact (@hnot [] (by simpa using hmore)).elim
      | cons t more => exact .inr ⟨t, more, hrest⟩

namespace Beside

/-- **Where no directive is found on one side, none is on the other**: it would end before the tail,
and so be found on both. -/
theorem using?_eq_none (h : P.Beside s s') (hs : P.Guarded s) (hnone : s.using? P.left = none) :
    s'.using? P.right = none := by
  cases hu : s'.using? P.right with
  | none => rfl
  | some u =>
    obtain ⟨u', hu', -⟩ := h.swap.using? hu ((hs.swap h).upTo_using? hu)
    exact absurd (hnone.symm.trans hu') nofun

/-- Where no header starts on one side, none does on the other. -/
theorem headerStart?_eq_none (h : P.Beside s s') (hs : P.Guarded s)
    (hnone : s.headerStart? P.left = none) : s'.headerStart? P.right = none := by
  cases hheader : s'.headerStart? P.right with
  | none => rfl
  | some header =>
    obtain ⟨header', hheader', -⟩ :=
      h.swap.headerStart? hheader ((hs.swap h).before_headerStart? hheader)
    exact absurd (hnone.symm.trans hheader') nofun

/-! ### Items -/

/-- An item that is skipped on one side is skipped on the other. -/
theorem skipItem (h : P.Beside s s') (hs : P.Before s) (hend : s.kind ≠ .endOfFile)
    (hnext : s.skipItem = .ok t) (ht : P.UpTo t) :
    ∃ t', s'.skipItem = .ok t' ∧ P.Level t t' := by
  rw [Stream.skipItem] at hnext ⊢
  rw [h.kind_eq hs]
  split at hnext
  next hopener =>
    obtain ⟨t', hskip, hlevel⟩ := h.skipGroup hopener hnext ht
    exact ⟨t', by rw [if_pos hopener, hskip], hlevel⟩
  next hopener =>
    split at hnext
    next => cases hnext
    next hcloser =>
      cases hnext
      exact ⟨_, by rw [if_neg hopener, if_neg hcloser], h.level_advance hs hend⟩

/-- A dotted name is read on both sides. -/
theorem identifiers {ts : List Token} {prevEnd : Nat} (h : P.Beside ⟨ts, prevEnd⟩ s')
    {names : Parsed (List String)} (hnames : Stream.identifiers prevEnd ts = .ok names)
    (hrest : P.Before names.rest) :
    ∃ names', Stream.identifiers s'.prevEnd s'.ahead = .ok names' ∧ names'.value = names.value ∧
      P.Beside names.rest names'.rest := by
  have hs := hrest.of_suffix (Stream.passes_identifiers hnames).suffix
  have hkind := h.kind_eq hs
  fun_induction Stream.identifiers prevEnd ts generalizing s' names with
  | case1 prevEnd name span dotSpan ts ih =>
    obtain ⟨later, hlater, hnames⟩ := exists_of_bind_eq_ok hnames
    cases hnames
    have hbehind := hrest.of_suffix (Stream.passes_identifiers hlater).suffix
    have hdot : P.Before ⟨⟨.dot, dotSpan⟩ :: ts, span.stop⟩ :=
      hbehind.of_suffix (List.suffix_cons _ _)
    have hadvance : P.Beside ⟨⟨.dot, dotSpan⟩ :: ts, span.stop⟩ s'.advance := h.advance hs
    have hadvance' : P.Beside ⟨ts, dotSpan.stop⟩ s'.advance.advance := hadvance.advance hdot
    obtain ⟨later', hlater', hvalue, hbeside⟩ :=
      ih hadvance' hlater hrest hbehind (hadvance'.kind_eq hbehind)
    refine ⟨⟨name :: later'.value, later'.rest⟩, ?_, congrArg (name :: ·) hvalue, hbeside⟩
    rw [Stream.identifiers_dot hkind (hadvance.kind_eq hdot), hlater']
    rfl
  | case2 prevEnd name span ts hdot =>
    cases hnames
    have hadvance : P.Beside ⟨ts, span.stop⟩ s'.advance := h.advance hs
    refine ⟨_, Stream.identifiers_last hkind ?_, rfl, hadvance⟩
    rw [hadvance.kind_eq hrest]
    exact Stream.kind_ne_dot _ hdot
  | case3 => cases hnames

/-- The header of a namespace is read on both sides. -/
theorem namespaceHeader (h : P.Beside s s') {header : Parsed (String × Bool)}
    (hheader : s.namespaceHeader = .ok header) (hrest : P.UpTo header.rest) :
    ∃ header', s'.namespaceHeader = .ok header' ∧ header'.value = header.value ∧
      P.Level header.rest header'.rest := by
  obtain ⟨name, fileScoped, hname, hkind, rfl⟩ := Stream.namespaceHeader_eq_ok_iff.1 hheader
  obtain ⟨names, hnames, hname⟩ := exists_of_bind_eq_ok hname
  cases hname
  have hend : names.rest.kind ≠ .endOfFile := by cases fileScoped <;> (rw [hkind]; nofun)
  have hbehind : P.Before names.rest := hrest.before hend
  obtain ⟨names', hnames', hvalue, hbeside⟩ := h.identifiers hnames hbehind
  have hname' : s'.dottedName = .ok ⟨".".intercalate names.value, names'.rest⟩ := by
    rw [Stream.dottedName, hnames', Stream.ok_bind, hvalue]
    rfl
  exact ⟨_, Stream.namespaceHeader_eq_ok_iff.2 ⟨_, fileScoped, hname',
    (hbeside.kind_eq hbehind).trans hkind, rfl⟩, rfl, hbeside.level_advance hbehind hend⟩

theorem behindBody (h : P.Beside s s') (hs : P.Before s) {fileScoped : Bool}
    (hrest : P.Clears (s.behindBody fileScoped)) :
    P.Beside (s.behindBody fileScoped) (s'.behindBody fileScoped) := by
  rw [Stream.behindBody] at hrest ⊢
  rw [Stream.behindBody]
  split
  next => exact h
  next hblock =>
    rw [if_neg hblock] at hrest
    exact (h.advance hs).eat_semicolon hrest

/-- A body goes on on both sides. -/
theorem goesOn (h : P.Beside s s') (hs : P.Before s) {braced : Bool}
    (hgoesOn : Stream.GoesOn braced s) : Stream.GoesOn braced s' := by
  have hkind := h.kind_eq hs
  refine ⟨?_, by rw [hkind]; exact hgoesOn.kind⟩
  have hends := hgoesOn.endsBody
  rw [Stream.endsBody] at hends ⊢
  rw [hkind, hends]

/-! ### One item of a body -/

section Items

variable {braced : Bool} {ordinal : Nat}

/-- A body that starts with a directive does so on both sides. -/
theorem bodyOf_using (h : P.Beside s s') (goesOn : Stream.GoesOn braced s)
    {u : Parsed UsingDirective} (found : s.using? P.left = some u) (hrest : P.UpTo u.rest) :
    ∃ u' : Parsed UsingDirective, UsingDirective.Like P.likeness u.value u'.value ∧
      P.Level u.rest u'.rest ∧ Stream.bodyOf P.right braced ordinal s' = (do
        let later ← Stream.bodyOf P.right braced ordinal u'.rest
        return { later with usings := u'.value :: later.usings }) := by
  obtain ⟨mark, htakes, hsemicolon, hmark⟩ := Stream.exists_takes_using? found
  have hs : P.Before s := by
    rw [hmark] at hrest
    exact (hrest.before (by rw [hsemicolon]; nofun)).of_takes htakes
  obtain ⟨u', hu', hlike, hlevel⟩ := h.using? found hrest
  exact ⟨u', hlike, hlevel, (h.goesOn hs goesOn).bodyOf_using hu'⟩

/-- A body that starts with a namespace does so on both sides. -/
theorem bodyOf_namespace (h : P.Beside s s') (hs : P.Guarded s) (goesOn : Stream.GoesOn braced s)
    (noUsing : s.using? P.left = none) (word : s.kind.isWord "namespace" = true)
    {header : Parsed (String × Bool)} (found : s.advance.namespaceHeader = .ok header)
    (hrest : P.UpTo header.rest) :
    ∃ header' : Parsed (String × Bool), header'.value = header.value ∧
      P.Level header.rest header'.rest ∧ Stream.bodyOf P.right braced ordinal s' = (do
        let content ← Stream.bodyOf P.right (braced || !header.value.2) ordinal header'.rest
        let later ← Stream.bodyOf P.right braced content.ordinal
          (content.rest.behindBody header.value.2)
        return later.behindScope content header.value s'.start) := by
  obtain ⟨header', hheader', hvalue, hlevel⟩ :=
    (h.advance hs.before).namespaceHeader found hrest
  refine ⟨header', hvalue, hlevel, ?_⟩
  have word' : s'.kind.isWord "namespace" = true := by rwa [h.kind_eq hs.before]
  rw [(h.goesOn hs.before goesOn).bodyOf_namespace (h.using?_eq_none hs noUsing) word',
    Stream.bodyFromNamespace, hheader', Stream.ok_bind, hvalue]

/-- A body that starts with a type does so on both sides, or an entry of its base list runs
backwards on the other. -/
theorem bodyOf_type (h : P.Beside s s') (hs : P.Guarded s) (goesOn : Stream.GoesOn braced s)
    (noUsing : s.using? P.left = none) (noNamespace : s.kind.isWord "namespace" = false)
    {d : Parsed TypeDeclaration} (found : s.typeDeclaration? P.left ordinal = .ok (some d))
    (hrest : P.Clears d.rest) :
    (∃ d' : Parsed TypeDeclaration, TypeDeclaration.Like P.likeness d.value d'.value ∧
      P.Level d.rest d'.rest ∧ Stream.bodyOf P.right braced ordinal s' = (do
        let later ← Stream.bodyOf P.right braced (ordinal + 1) d'.rest
        return { later with members := .type d'.value :: later.members })) ∨
      (¬P.IsOrdered ∧ ∃ span, Stream.bodyOf P.right braced ordinal s' =
        .error (.backwardEntry span)) := by
  have noNamespace' : s'.kind.isWord "namespace" = false := by rwa [h.kind_eq hs.before]
  rw [(h.goesOn hs.before goesOn).bodyOf_type (h.using?_eq_none hs noUsing) noNamespace',
    Stream.bodyFromType]
  obtain ⟨d?, hd, d', rfl, hlike, hlevel⟩ | ⟨hordered, span, herror⟩ :=
    h.typeDeclaration? found hrest
  · rw [hd]
    exact .inl ⟨d', hlike, hlevel, rfl⟩
  · rw [herror]
    exact .inr ⟨hordered, span, rfl⟩

/-- A body that starts with an item that is skipped does so on both sides. -/
theorem bodyOf_item (h : P.Beside s s') (hs : P.Guarded s) (goesOn : Stream.GoesOn braced s)
    (noUsing : s.using? P.left = none) (noNamespace : s.kind.isWord "namespace" = false)
    (noType : s.typeDeclaration? P.left ordinal = .ok none) (found : s.skipItem = .ok t)
    (ht : P.UpTo t) :
    ∃ t', P.Level t t' ∧
      Stream.bodyOf P.right braced ordinal s' = Stream.bodyOf P.right braced ordinal t' := by
  obtain ⟨t', ht', hlevel⟩ := h.skipItem hs.before goesOn.kind found ht
  refine ⟨t', hlevel, ?_⟩
  have noNamespace' : s'.kind.isWord "namespace" = false := by rwa [h.kind_eq hs.before]
  rw [(h.goesOn hs.before goesOn).bodyOf_type (h.using?_eq_none hs noUsing) noNamespace',
    Stream.bodyFromType, Stream.typeDeclaration?,
    h.headerStart?_eq_none hs (Stream.headerStart?_eq_none noType)]
  dsimp only
  rw [ht', Stream.ok_bind]

end Items

end Beside

theorem Level.behindBody (h : P.Level s s') (hs : P.Before s) {fileScoped : Bool}
    (hrest : P.Clears (s.behindBody fileScoped)) :
    P.Level (s.behindBody fileScoped) (s'.behindBody fileScoped) := by
  rw [Stream.behindBody] at hrest ⊢
  rw [Stream.behindBody]
  split
  next => exact h
  next hblock =>
    rw [if_neg hblock] at hrest
    exact (h.advance hs).eat_semicolon hrest

/-- Bodies that match: they hold the same, and the ordinals behind them are the same. -/
structure BodyMatches (N : WrittenNames) (b b' : Stream.Body) : Prop where
  usings : List.Forall₂ (UsingDirective.Matches N) b.usings b'.usings
  members : membersMatch N b.members b'.members
  ordinal : b'.ordinal = b.ordinal

/-- Bodies that are alike. -/
structure BodiesAlike (P : Pairing) (b b' : Stream.Body) : Prop where
  usings : List.Forall₂ (UsingDirective.Like P.likeness) b.usings b'.usings
  members : membersLike P.likeness b.members b'.members
  ordinal : b'.ordinal = b.ordinal

/-- Bodies that are alike match. -/
theorem BodiesAlike.matches {b b' : Stream.Body} (h : P.BodiesAlike b b') :
    BodyMatches P.names b b' :=
  ⟨matches_of_usingsLike h.usings, matches_of_membersLike h.members, h.ordinal⟩

/-- What lies between two streams is read on both sides: behind it the streams stand side by side,
and they are level if they were. -/
structure Follows (P : Pairing) (s s' t t' : Stream) : Prop where
  beside : P.Beside t t'
  level : P.Level s s' → P.Level t t'

theorem Level.follows {t' : Stream} (h : P.Level t t') : P.Follows s s' t t' :=
  ⟨h.beside, fun _ ↦ h⟩

/-- Behind something that is read, the streams are level. -/
theorem Follows.behind {t' u u' : Stream} (h : P.Follows t t' u u') (ht : P.Level t t') :
    P.Follows s s' u u' :=
  (h.level ht).follows

/-- **A body is read on both sides.** -/
theorem Beside.reads (h : P.Beside s s') {braced : Bool} {ordinal : Nat} {b : Stream.Body}
    (hreads : Stream.Reads P.left braced ordinal s b) (hrest : P.Guarded b.rest) :
    P.Gives (fun b' ↦ P.BodiesAlike b b' ∧ P.Follows s s' b.rest b'.rest)
      (Stream.bodyOf P.right braced ordinal s') := by
  induction hreads generalizing s' with
  | @done braced ordinal s ends =>
    have ends' : s'.endsBody braced = true := by
      rw [Stream.endsBody] at ends ⊢
      rwa [h.kind_eq hrest.before]
    rw [Stream.bodyOf_eq, if_pos ends']
    exact .ok ⟨⟨.nil, trivial, rfl⟩, h, id⟩
  | @usingDirective braced ordinal s u later goesOn found hlater ih =>
    have hbehind := hrest.of_passes hlater.exists_passes
    obtain ⟨u', hlike, hlevel, heq⟩ := h.bodyOf_using goesOn found hbehind.before.upTo
    rw [heq]
    refine (ih hlevel.beside hrest).bind fun later' hlater' ↦ ?_
    obtain ⟨hlaters, hfollows⟩ := hlater'
    exact .ok ⟨⟨.cons hlike hlaters.usings, hlaters.members, hlaters.ordinal⟩,
      hfollows.behind hlevel⟩
  | @scope braced ordinal s header content later goesOn noUsing word found hcontent hlater ihcontent
      ihlater =>
    have hbehind := hrest.of_passes hlater.exists_passes
    have hcontentRest := hbehind.of_passes hcontent.exists_passes_behindBody
    have hheaderRest := hcontentRest.of_passes hcontent.exists_passes
    have hs := hheaderRest.of_passes (Stream.takesItem_namespaceHeader word found).passes
    obtain ⟨header', hvalue, hlevel, heq⟩ :=
      h.bodyOf_namespace hs goesOn noUsing word found hheaderRest.before.upTo
    rw [heq]
    refine (ihcontent hlevel.beside hcontentRest).bind fun content' hcontent' ↦ ?_
    obtain ⟨hcontents, hfollows⟩ := hcontent'
    have hbehinds := (hfollows.level hlevel).behindBody hcontentRest.before hbehind.before.clears
    rw [hcontents.ordinal]
    refine (ihlater hbehinds.beside hrest).bind fun later' hlater' ↦ ?_
    obtain ⟨hlaters, hfollows'⟩ := hlater'
    have hspan := h.meet_start hs.before (Stream.isPlain_of_isWord word).inside
    exact .ok ⟨⟨hlaters.usings, ⟨⟨rfl, rfl, ⟨hspan, hbehinds.prevEnd⟩, hcontents.usings,
      hcontents.members⟩, hlaters.members⟩, hlaters.ordinal⟩, hfollows'.behind hbehinds⟩
  | @type braced ordinal s d later goesOn noUsing noNamespace found hlater ih =>
    have hbehind := hrest.of_passes hlater.exists_passes
    have hs := hbehind.of_passes (Stream.takesItem_typeDeclaration? found).passes
    obtain ⟨d', hlike, hlevel, heq⟩ | herror :=
      h.bodyOf_type hs goesOn noUsing noNamespace found hbehind.before.clears
    · rw [heq]
      refine (ih hlevel.beside hrest).bind fun later' hlater' ↦ ?_
      obtain ⟨hlaters, hfollows⟩ := hlater'
      exact .ok ⟨⟨hlaters.usings, ⟨hlike, hlaters.members⟩, hlaters.ordinal⟩,
        hfollows.behind hlevel⟩
    · exact .inr herror
  | @item braced ordinal s next later goesOn noUsing noNamespace noType found hlater ih =>
    have hbehind := hrest.of_passes hlater.exists_passes
    have hs := hbehind.of_passes ⟨[], Stream.passes_skipItem goesOn.kind found⟩
    obtain ⟨next', hlevel, heq⟩ :=
      h.bodyOf_item hs goesOn noUsing noNamespace noType found hbehind.before.upTo
    rw [heq]
    exact (ih hlevel.beside hrest).imp fun _ ↦ And.imp_right (·.behind hlevel)

end Pairing

end DoubleDispatch
