import ClassLineage.Proofs.Declaration.Reference

/-!
# References relative to the namespace

A reference may be written relative to the current namespace, as the keyword `namespace`, a
separator and a name.  The keyword is no part of a name, so that a list of references is read
up to the first relative one and no further: what precedes it is recorded, and the relative
reference is lost together with all that follows it in the list.

## Main definitions

* `Reference` — a reference by name, or relative to the namespace.
* `WritesReferences`, `WritesReferrer`, `WritesReferrers` — the grammar of lists of references,
  of declarations and of files that hold them.
* `Reference.namesBefore` — the names of a list before its first relative reference.
* `Referrer.IsKeptIn` — a record has all references of a declaration.

## Main results

* `Outline.readNames_references` — **a list of references is read up to the first relative one.**
* `Declaration.scanWith_relative` — **a record has the references before the first relative one
  of each list,** and so all of them exactly if none is relative.
* `Declaration.not_isKeptIn_relative` — relative references are lost, and others with them.
-/

namespace ClassLineage

open Token

/-! ### The grammar -/

/-- A reference to a class or an interface. -/
inductive Reference
  /-- By a name that the imports may resolve. -/
  | named (name : String)
  /-- By a name relative to the current namespace. -/
  | relative (name : String)
deriving Repr, DecidableEq

namespace Reference

/-- The names of a list of references, up to the first relative one. -/
def namesBefore : List Reference → List String
  | .named name :: rest => name :: namesBefore rest
  | _ => []

/-- The full name of what the reference refers to. -/
def fullName? (imports : ImportTable) (space : String) : Reference → Option String
  | named name => Name.resolve imports space name
  | relative name => some (Name.qualify name space)

/-- The reference is not relative. -/
def IsNamed (r : Reference) : Prop := ∃ name, r = named name

@[simp] theorem namesBefore_named (name : String) (rest : List Reference) :
    namesBefore (named name :: rest) = name :: namesBefore rest := rfl

end Reference

/-- `WritesReference r ts` — the tokens `ts` write the reference `r`. -/
inductive WritesReference : Reference → List Token → Prop
  | named {name : String} {ts : List Token} (h : WritesName name ts) :
      WritesReference (.named name) ts
  | relative {word s : Token} {name last : String} {ts : List Token}
      (hw : word.isKeyword .namespaceWord = true) (hs : s.kind = .separator)
      (h : WritesSegments name last ts) : WritesReference (.relative name) (word :: s :: ts)

/-- `WritesReferences refs ts` — the tokens `ts` write the references, at least one, between
commas. -/
inductive WritesReferences : List Reference → List Token → Prop
  | one {r : Reference} {ts : List Token} (h : WritesReference r ts) : WritesReferences [r] ts
  | more {r : Reference} {refs : List Reference} {comma : Token} {ts us : List Token}
      (h : WritesReference r ts) (hc : comma.isComma = true) (hs : WritesReferences refs us) :
      WritesReferences (r :: refs) (ts ++ comma :: us)

/-- `WritesReferenceClause k refs ts` — the tokens `ts` are a clause of the keyword `k` with
these references; without references there is no clause. -/
inductive WritesReferenceClause (k : Keyword) : List Reference → List Token → Prop
  | absent : WritesReferenceClause k [] []
  | present {word : Token} {refs : List Reference} {ts : List Token}
      (hw : word.isKeyword k = true) (h : WritesReferences refs ts) :
      WritesReferenceClause k refs (word :: ts)

/-- `WritesTraits lists ts` — the tokens `ts` are the body of a class, without its braces, whose
statements use these lists of traits. -/
inductive WritesTraits : List (List Reference) → List Token → Prop
  | nil : WritesTraits [] []
  | traits {word stop : Token} {refs : List Reference} {more : List (List Reference)}
      {ts us : List Token} (hw : word.isKeyword .useWord = true) (hn : WritesReferences refs ts)
      (hs : stop.isSemicolon = true) (h : WritesTraits more us) :
      WritesTraits (refs :: more) (word :: (ts ++ stop :: us))
  | adapted {word o c : Token} {refs : List Reference} {more : List (List Reference)}
      {ts inner us : List Token} (hw : word.isKeyword .useWord = true)
      (hn : WritesReferences refs ts) (ho : o.opensBlock = true) (hin : Balanced inner)
      (hc : c.closesBlock = true) (h : WritesTraits more us) :
      WritesTraits (refs :: more) (word :: (ts ++ o :: (inner ++ c :: us)))
  | block {o c : Token} {lists : List (List Reference)} {inner us : List Token}
      (ho : o.opensBlock = true) (hin : Balanced inner) (hc : c.closesBlock = true)
      (h : WritesTraits lists us) : WritesTraits lists (o :: (inner ++ c :: us))
  | other {t : Token} {lists : List (List Reference)} {us : List Token}
      (ho : t.opensBlock = false) (hc : t.closesBlock = false)
      (hu : t.isKeyword .useWord = false) (h : WritesTraits lists us) :
      WritesTraits lists (t :: us)

/-- A declaration with all that it refers to. -/
structure Referrer where
  /-- What is declared. -/
  kind : DeclarationKind
  /-- The name that it is declared by. -/
  shortName : String
  /-- The namespace that it belongs to. -/
  space : String
  /-- The parents in order. -/
  parents : List Reference
  /-- The interfaces in order. -/
  interfaces : List Reference
  /-- The traits, statement by statement. -/
  traits : List (List Reference)
deriving Repr, DecidableEq

/-- `WritesReferrer space r ts` — the tokens `ts` declare `r` in the namespace `space`. -/
inductive WritesReferrer (space : String) : Referrer → List Token → Prop
  | classHeader {parent : Option Reference} {interfaces : List Reference}
      {word name stop : Token} {ps is : List Token} (hw : word.isKeyword .classWord = true)
      (hn : Outline.isShortName name = true)
      (hp : WritesReferenceClause .extendsWord parent.toList ps)
      (hi : WritesReferenceClause .implementsWord interfaces is)
      (hs : stop.isSemicolon = true) :
      WritesReferrer space ⟨.classKind, name.text, space, parent.toList, interfaces, []⟩
        (word :: name :: (ps ++ (is ++ [stop])))
  | classBody {parent : Option Reference} {interfaces : List Reference}
      {traits : List (List Reference)} {word name o c : Token} {ps is body : List Token}
      (hw : word.isKeyword .classWord = true) (hn : Outline.isShortName name = true)
      (hp : WritesReferenceClause .extendsWord parent.toList ps)
      (hi : WritesReferenceClause .implementsWord interfaces is) (ho : o.opensBlock = true)
      (hb : WritesTraits traits body) (hc : c.closesBlock = true) :
      WritesReferrer space ⟨.classKind, name.text, space, parent.toList, interfaces, traits⟩
        (word :: name :: (ps ++ (is ++ o :: (body ++ [c]))))
  | interfaceHeader {parents : List Reference} {word name o : Token} {ps : List Token}
      (hw : word.isKeyword .interfaceWord = true) (hn : Outline.isShortName name = true)
      (hp : WritesReferenceClause .extendsWord parents ps) (ho : o.opensBlock = true) :
      WritesReferrer space ⟨.interfaceKind, name.text, space, parents, [], []⟩
        (word :: name :: (ps ++ [o]))

/-- `WritesReferrers space declared ts` — in the namespace `space`, the tokens `ts` are the rest
of a well-formed file with these declarations.  The body of an interface is what follows its
opening brace, and is made of tokens that declare nothing. -/
inductive WritesReferrers : String → List Referrer → List Token → Prop
  | done (space : String) : WritesReferrers space [] []
  | inert {space : String} {declared : List Referrer} {t : Token} {rest : List Token}
      (ht : Outline.IsInert t rest) (h : WritesReferrers space declared rest) :
      WritesReferrers space declared (t :: rest)
  | namespaceOf {space name last : String} {declared : List Referrer} {word stop : Token}
      {ts rest : List Token} (hw : word.isKeyword .namespaceWord = true)
      (hn : WritesSegments name last ts) (hs : stop.isSemicolon = true ∨ stop.opensBlock = true)
      (h : WritesReferrers name declared rest) :
      WritesReferrers space declared (word :: (ts ++ stop :: rest))
  | globalNamespace {space : String} {declared : List Referrer} {word o : Token}
      {rest : List Token} (hw : word.isKeyword .namespaceWord = true)
      (ho : o.opensBlock = true) (h : WritesReferrers "" declared rest) :
      WritesReferrers space declared (word :: o :: rest)
  | declares {space : String} {r : Referrer} {declared : List Referrer} {ts rest : List Token}
      (hr : WritesReferrer space r ts) (h : WritesReferrers space declared rest) :
      WritesReferrers space (r :: declared) (ts ++ rest)

namespace Referrer

/-- The outline of a declaration without its relative references, and without those that follow
one in its list. -/
def outline (r : Referrer) : Outline :=
  ⟨r.kind, r.shortName, r.space, (Reference.namesBefore r.parents).head?,
    Reference.namesBefore r.interfaces, r.traits.flatMap Reference.namesBefore⟩

/-- The record has the first parent of the declaration and all its interfaces and traits, each
under its full name. -/
structure IsKeptIn (imports : ImportTable) (r : Referrer) (d : Declaration) : Prop where
  /-- The parent is the first of the parents. -/
  parent : d.parent.map some = r.parents.head?.map (Reference.fullName? imports r.space)
  /-- The interfaces are all there, in order. -/
  interfaces : d.interfaces.map some = r.interfaces.map (Reference.fullName? imports r.space)
  /-- The traits are all there, in order. -/
  traits : d.traits.map some = r.traits.flatten.map (Reference.fullName? imports r.space)

/-- No reference that counts is relative. -/
structure IsNamed (r : Referrer) : Prop where
  /-- The first parent is not relative. -/
  parent : ∀ p ∈ r.parents.head?, p.IsNamed
  /-- No interface is relative. -/
  interfaces : ∀ i ∈ r.interfaces, i.IsNamed
  /-- No trait is relative. -/
  traits : ∀ t ∈ r.traits.flatten, t.IsNamed

end Referrer

/-! ### The tokens of references -/

/-- The token may stand in a list of references: it is a comma, part of a name, or the keyword
of a relative reference. -/
def mayRefer (t : Token) : Bool := t.isComma || t.isNamePart || t.isKeyword .namespaceWord

theorem WritesReference.mayRefer {r : Reference} {ts : List Token} (h : WritesReference r ts) :
    ∀ t ∈ ts, mayRefer t = true := by
  have hpart : ∀ {t : Token}, t.isNamePart = true → ClassLineage.mayRefer t = true := fun h => by
    rw [ClassLineage.mayRefer, h, Bool.or_true, Bool.true_or]
  cases h with
  | named h => exact fun t ht => hpart (h.isNamePart t ht)
  | relative hw hs h =>
    intro t ht
    rcases List.mem_cons.mp ht with rfl | ht
    · rw [ClassLineage.mayRefer, hw, Bool.or_true]
    · rcases List.mem_cons.mp ht with rfl | ht
      · exact hpart (isNamePart_of_separator hs)
      · exact hpart (h.isNamePart t ht)

theorem WritesReferences.mayRefer {refs : List Reference} {ts : List Token}
    (h : WritesReferences refs ts) : ∀ t ∈ ts, mayRefer t = true := by
  induction h with
  | one h => exact h.mayRefer
  | more h hc _ ih =>
    intro t ht
    rcases List.mem_append.mp ht with ht | ht
    · exact h.mayRefer t ht
    · rcases List.mem_cons.mp ht with rfl | ht
      · rw [ClassLineage.mayRefer, hc, Bool.true_or, Bool.true_or]
      · exact ih t ht

/-- A token of a list of references means nothing outside of the list. -/
structure IsPassedOver (t : Token) : Prop where
  /-- It opens no block. -/
  opens : t.opensBlock = false
  /-- It closes none. -/
  closes : t.closesBlock = false
  /-- It ends no statement. -/
  semicolon : t.isSemicolon = false
  /-- It is no keyword but that of a relative reference. -/
  keyword : ∀ k, k ≠ .namespaceWord → t.isKeyword k = false

theorem isPassedOver_of_mayRefer {ts : List Token} (hm : MarksInterpolate ts) {t : Token}
    (ht : t ∈ ts) (h : mayRefer t = true) : IsPassedOver t := by
  rw [mayRefer, Bool.or_eq_true, Bool.or_eq_true] at h
  rcases h with (hc | hp) | hk
  · exact ⟨opensBlock_of_isComma hc, closesBlock_of_isComma hc, isSemicolon_of_isComma hc,
      fun k _ => isKeyword_of_isSymbol hc k⟩
  · exact ⟨hm.opensOutsideNames t ht (isInName_of_isNamePart hp), isSymbol_of_isNamePart hp _,
      isSymbol_of_isNamePart hp _, fun k _ => isKeyword_of_isNamePart hp k⟩
  · exact ⟨hm.opensBlock_of_isKeyword ht hk, isSymbol_of_isKeyword hk _,
      isSymbol_of_isKeyword hk _, fun k hne => isKeyword_of_ne hk hne.symm⟩

theorem WritesReferences.isPassedOver {refs : List Reference} {ts : List Token}
    (h : WritesReferences refs ts) (hm : MarksInterpolate ts) : ∀ t ∈ ts, IsPassedOver t :=
  fun t ht => isPassedOver_of_mayRefer hm ht (h.mayRefer t ht)

namespace Outline

/-! ### Lists -/

/-- **A list of references is read up to the first relative one.**  What is left of it means
nothing to who reads on. -/
theorem readNames_references {ends : Token → Bool} {refs : List Reference} {ts : List Token}
    (h : WritesReferences refs ts) (hq : ∀ t ∈ ts, ends t = false) (hm : MarksInterpolate ts)
    {stop : Token} (hstop : ends stop = true) (hin : stop.isInName = false)
    (rest : List Token) :
    ∃ left, readNames ends (ts ++ stop :: rest)
        = (Reference.namesBefore refs, left ++ stop :: rest) ∧
      ∀ t ∈ left, t ∈ ts ∧ IsPassedOver t := by
  have hover := h.isPassedOver hm
  -- the keyword of a relative reference is no name, and ends the list
  have hword : ∀ {word : Token} {us : List Token}, word.isKeyword .namespaceWord = true →
      ends word = false → readNames ends (word :: us) = ([], word :: us) := by
    intro word us hw he
    refine readNames_of_none he ?_ (collectName_of_not_isInName (isInName_of_isKeyword hw) us)
    rw [isComma, isSymbol_of_isKeyword hw, isTrivia_of_isKeyword hw]
    rfl
  induction h with
  | one h =>
    cases h with
    | named h =>
      refine ⟨[], ?_, fun t ht => absurd ht List.not_mem_nil⟩
      rw [readNames_name h hq hin, readNames_of_ends hstop]
      rfl
    | @relative word s name last ts hw hs h =>
      exact ⟨word :: s :: ts, hword hw (hq word List.mem_cons_self),
        fun t ht => ⟨ht, hover t ht⟩⟩
  | @more r refs comma ts us h hc hrest ih =>
    cases h with
    | named h =>
      have hqts : ∀ t ∈ ts, ends t = false := fun t ht => hq t (List.mem_append_left _ ht)
      have hus : us ⊆ ts ++ comma :: us := fun t ht =>
        List.mem_append_right _ (List.mem_cons_of_mem _ ht)
      have hqc : ends comma = false := hq comma (List.mem_append_right _ List.mem_cons_self)
      obtain ⟨left, hread, hleft⟩ := ih (fun t ht => hq t (hus ht)) (hm.of_subset hus)
        fun t ht => hover t (hus ht)
      refine ⟨left, ?_, fun t ht => ⟨hus (hleft t ht).1, (hleft t ht).2⟩⟩
      rw [List.append_assoc, List.cons_append, readNames_name h hqts (isInName_of_isSymbol hc),
        readNames_of_between hqc (by rw [hc, Bool.true_or]), hread]
      rfl
    | @relative word s name last ts hw hs h =>
      exact ⟨(word :: s :: ts) ++ comma :: us, by
        rw [List.append_assoc]; exact hword hw (hq word List.mem_cons_self),
        fun t ht => ⟨ht, hover t ht⟩⟩

/-! ### Headers -/

/-- Of the references of an `extends` clause the first is the parent, unless it is relative. -/
theorem readHeader_extendsReferences {parents : List Reference} {ps : List Token}
    (h : WritesReferenceClause .extendsWord parents ps) (hm : MarksInterpolate ps)
    (interfaces : List String) {t : Token} (ht : t.isInName = false) (rest : List Token) :
    readHeader none interfaces (ps ++ t :: rest)
      = readHeader (Reference.namesBefore parents).head? interfaces (t :: rest) := by
  cases h with
  | absent => rfl
  | @present word refs ts hw h =>
    have ho := hm.opensBlock_of_isKeyword List.mem_cons_self hw
    have hs : word.isSemicolon = false := isSymbol_of_isKeyword hw _
    have hmts : MarksInterpolate ts := hm.of_subset (List.subset_cons_self _ _)
    have hover := h.isPassedOver hmts
    have hpass : ∀ us : List Token, us ⊆ ts → ∀ parent,
        readHeader parent interfaces (us ++ t :: rest) = readHeader parent interfaces (t :: rest) :=
      fun us hus parent => readHeader_append parent interfaces (fun u hu =>
        have hu := hover u (hus hu)
        ⟨hu.opens, hu.semicolon, hu.keyword _ (by decide), hu.keyword _ (by decide)⟩) (t :: rest)
    rw [List.cons_append, readHeader, ho, hs, hw]
    show readHeader (none.or (reference? (collectName (ts ++ t :: rest)).1)) interfaces
      (collectName (ts ++ t :: rest)).2 = _
    cases h with
    | one h =>
      cases h with
      | named h =>
        rw [collectName_append h ht, reference?_of_hasSubstance h.hasSubstance]
        rfl
      | @relative word' s name last us hw' hs' h =>
        rw [List.cons_append, collectName_of_not_isInName (isInName_of_isKeyword hw')]
        exact hpass _ (List.Subset.refl _) none
    | @more r refs comma us vs h hc hv =>
      cases h with
      | named h =>
        rw [List.append_assoc, List.cons_append, collectName_append h (isInName_of_isSymbol hc),
          reference?_of_hasSubstance h.hasSubstance]
        exact hpass (comma :: vs) (List.subset_append_right us _) _
      | @relative word' s name last us hw' hs' h =>
        rw [List.cons_append, List.cons_append,
          collectName_of_not_isInName (isInName_of_isKeyword hw')]
        exact hpass _ (List.Subset.refl _) none

/-- The references of an `implements` clause before the first relative one are the
interfaces. -/
theorem readHeader_implementsReferences {interfaces : List Reference} {is : List Token}
    (h : WritesReferenceClause .implementsWord interfaces is) (hm : MarksInterpolate is)
    (parent : Option String) {t : Token} (ht : t.isInName = false)
    (hends : endsInterfaces t = true) (rest : List Token) :
    readHeader parent [] (is ++ t :: rest)
      = readHeader parent (Reference.namesBefore interfaces) (t :: rest) := by
  cases h with
  | absent => rfl
  | @present word refs ts hw h =>
    have ho := hm.opensBlock_of_isKeyword List.mem_cons_self hw
    have hs : word.isSemicolon = false := isSymbol_of_isKeyword hw _
    have he : word.isKeyword .extendsWord = false := isKeyword_of_ne hw (by decide)
    have hmts : MarksInterpolate ts := hm.of_subset (List.subset_cons_self _ _)
    have hq : ∀ u ∈ ts, endsInterfaces u = false := by
      intro u hu
      have hover := h.isPassedOver hmts u hu
      rw [endsInterfaces, hover.opens, hover.semicolon]
      rfl
    obtain ⟨left, hread, hleft⟩ := readNames_references h hq hmts hends ht rest
    rw [List.cons_append, readHeader, ho, hs, he, hw]
    show readHeader parent ([] ++ (readNames endsInterfaces (ts ++ t :: rest)).1)
      (readNames endsInterfaces (ts ++ t :: rest)).2 = _
    rw [hread, List.nil_append]
    exact readHeader_append parent _ (fun u hu =>
      have hu := (hleft u hu).2
      ⟨hu.opens, hu.semicolon, hu.keyword _ (by decide), hu.keyword _ (by decide)⟩) (t :: rest)

/-- A header is read up to the token that ends it. -/
theorem readHeader_references {parents interfaces : List Reference} {ps is : List Token}
    (hp : WritesReferenceClause .extendsWord parents ps)
    (hi : WritesReferenceClause .implementsWord interfaces is) (hmp : MarksInterpolate ps)
    (hmi : MarksInterpolate is) {stop : Token} (hstop : stop.isInName = false)
    (hends : endsInterfaces stop = true) (rest : List Token) :
    readHeader none [] (ps ++ (is ++ stop :: rest))
      = readHeader (Reference.namesBefore parents).head? (Reference.namesBefore interfaces)
          (stop :: rest) := by
  have hhead : ∃ t us, is ++ stop :: rest = t :: us ∧ t.isInName = false := by
    cases hi with
    | absent => exact ⟨stop, rest, rfl, hstop⟩
    | present hw _ => exact ⟨_, _, rfl, isInName_of_isKeyword hw⟩
  obtain ⟨t, us, hus, ht⟩ := hhead
  rw [hus, readHeader_extendsReferences hp hmp [] ht, ← hus,
    readHeader_implementsReferences hi hmi _ hstop hends]

/-! ### Bodies -/

/-- Tokens that mean nothing to a body are passed over. -/
theorem readBody_passedOver {ts : List Token} (h : ∀ t ∈ ts, IsPassedOver t) (rest : List Token) :
    readBody 1 (ts ++ rest) = readBody 1 rest := by
  induction ts with
  | nil => rfl
  | cons t ts ih =>
    have ht := h t List.mem_cons_self
    rw [List.cons_append, readBody, ht.opens, ht.closes, ht.keyword .useWord (by decide),
      if_neg Bool.false_ne_true, if_neg Bool.false_ne_true,
      if_neg (fun h => Bool.false_ne_true h.2)]
    exact ih fun u hu => h u (List.mem_cons_of_mem _ hu)

/-- A block of a body is passed over. -/
theorem readBody_block {o c : Token} {inner : List Token} (ho : o.opensBlock = true)
    (hin : Balanced inner) (hc : c.closesBlock = true) (rest : List Token) :
    readBody 1 (o :: (inner ++ c :: rest)) = readBody 1 rest := by
  rw [readBody, if_pos ho, readBody_balanced hin, readBody, opensBlock_of_closesBlock hc,
    if_neg Bool.false_ne_true, if_pos hc, if_neg (by omega)]

/-- The traits of a statement before the first relative one are read.  Where there is none, the
statement is read to its end; else the reader stops in the middle of it. -/
theorem readTraitUse_references {refs : List Reference} {ts : List Token}
    (h : WritesReferences refs ts) (hm : MarksInterpolate ts) {stop : Token}
    (hends : endsTraits stop = true) (hin : stop.isInName = false) (after : List Token) :
    readTraitUse (ts ++ stop :: after)
        = (Reference.namesBefore refs, (readTraitUse (stop :: after)).2) ∨
      ∃ left, readTraitUse (ts ++ stop :: after)
          = (Reference.namesBefore refs, left ++ stop :: after) ∧
        ∀ t ∈ left, IsPassedOver t := by
  have hq : ∀ t ∈ ts, endsTraits t = false := by
    intro t ht
    have hover := h.isPassedOver hm t ht
    rw [endsTraits, hover.opens, hover.semicolon, Bool.or_false, Bool.and_false]
  obtain ⟨left, hread, hleft⟩ := readNames_references h hq hm hends hin after
  cases left with
  | nil =>
    refine Or.inl ?_
    have hstop : readNames endsTraits (stop :: after) = ([], stop :: after) :=
      readNames_of_ends hends
    rw [List.nil_append] at hread
    rw [readTraitUse, readTraitUse, hread, hstop]
    dsimp only
    split
    · rfl
    · split <;> rfl
  | cons t left =>
    refine Or.inr ⟨t :: left, ?_, fun u hu => (hleft u hu).2⟩
    have ht := (hleft t List.mem_cons_self).2
    rw [readTraitUse, hread]
    simp only [List.cons_append, ht.semicolon, ht.opens, Bool.false_eq_true, if_false]

/-- **A statement gives a body the traits before the first relative one,** however it ends: the
body goes on behind the statement, whether the reader of it has come to its end or not. -/
theorem readBody_traitUse {refs : List Reference} {word : Token} {ts : List Token}
    (hw : word.isKeyword .useWord = true) (h : WritesReferences refs ts)
    (hm : MarksInterpolate (word :: ts)) {stop : Token} (hends : endsTraits stop = true)
    (hin : stop.isInName = false) {after rest : List Token}
    (hread : (readTraitUse (stop :: after)).2 = rest)
    (hbody : readBody 1 (stop :: after) = readBody 1 rest) :
    readBody 1 (word :: (ts ++ stop :: after))
      = (Reference.namesBefore refs ++ (readBody 1 rest).1, (readBody 1 rest).2) := by
  have ho := hm.opensBlock_of_isKeyword List.mem_cons_self hw
  have hc : word.closesBlock = false := isSymbol_of_isKeyword hw _
  rw [readBody, ho, hc, if_neg Bool.false_ne_true, if_neg Bool.false_ne_true, if_pos ⟨rfl, hw⟩]
  rcases readTraitUse_references h (hm.of_subset (List.subset_cons_self _ _)) hends hin after with
    huse | ⟨left, huse, hleft⟩
  · simp only [huse, hread]
  · simp only [huse, readBody_passedOver hleft, hbody]

/-- A body is read up to the brace that closes it, and of each statement gives the traits before
the first relative one. -/
theorem readBody_references {lists : List (List Reference)} {body : List Token}
    (h : WritesTraits lists body) (hm : MarksInterpolate body) {c : Token}
    (hc : c.closesBlock = true) (rest : List Token) :
    readBody 1 (body ++ c :: rest) = (lists.flatMap Reference.namesBefore, rest) := by
  induction h with
  | nil =>
    rw [List.nil_append, readBody, opensBlock_of_closesBlock hc, hc]
    rfl
  | @traits word stop refs more ts us hw hn hs _ ih =>
    have hmword : MarksInterpolate (word :: ts) := hm.of_subset fun u hu => by
      rw [← List.cons_append]
      exact List.mem_append_left _ hu
    have hmus : MarksInterpolate us := hm.of_subset fun u hu =>
      List.mem_cons_of_mem _ (List.mem_append_right _ (List.mem_cons_of_mem _ hu))
    have hin : stop.isInName = false := isInName_of_isSymbol hs
    have hends : endsTraits stop = true := by rw [endsTraits_eq hin, hs, Bool.or_true]
    have hread : (readTraitUse (stop :: (us ++ c :: rest))).2 = us ++ c :: rest := by
      simp only [readTraitUse, readNames_of_ends hends, hs, if_true]
    have hbody : readBody 1 (stop :: (us ++ c :: rest)) = readBody 1 (us ++ c :: rest) := by
      rw [readBody, opensBlock_of_isSemicolon hs, closesBlock_of_isSemicolon hs,
        isKeyword_of_isSymbol hs]
      simp only [Bool.false_eq_true, and_false, if_false]
    rw [List.cons_append, List.append_assoc, List.cons_append,
      readBody_traitUse hw hn hmword hends hin hread hbody, ih hmus]
    rfl
  | @adapted word o c' refs more ts inner us hw hn ho hinner hc' _ ih =>
    have hmword : MarksInterpolate (word :: ts) := hm.of_subset fun u hu => by
      rw [← List.cons_append]
      exact List.mem_append_left _ hu
    have hmus : MarksInterpolate us := hm.of_subset fun u hu =>
      List.mem_cons_of_mem _ (List.mem_append_right _ (List.mem_cons_of_mem _
        (List.mem_append_right _ (List.mem_cons_of_mem _ hu))))
    have hin : o.isInName = false := hm.isInName_of_opensBlock
      (List.mem_cons_of_mem _ (List.mem_append_right _ List.mem_cons_self)) ho
    have hends : endsTraits o = true := by rw [endsTraits_eq hin, ho, Bool.true_or]
    have hs : o.isSemicolon = false := by
      rw [← Bool.not_eq_true]
      intro hs
      rw [opensBlock_of_isSemicolon hs] at ho
      exact Bool.false_ne_true ho
    have hread : (readTraitUse (o :: (inner ++ c' :: (us ++ c :: rest)))).2 = us ++ c :: rest := by
      simp only [readTraitUse, readNames_of_ends hends, hs, ho, if_true, Bool.false_eq_true,
        if_false, skipBalanced_block ho hinner hc']
    have hsplit : (ts ++ o :: (inner ++ c' :: us)) ++ c :: rest
        = ts ++ o :: (inner ++ c' :: (us ++ c :: rest)) := by simp
    rw [List.cons_append, hsplit, readBody_traitUse hw hn hmword hends hin hread
      (readBody_block ho hinner hc' _), ih hmus]
    rfl
  | @block o c' lists inner us ho hinner hc' _ ih =>
    have hmus : MarksInterpolate us := hm.of_subset fun u hu =>
      List.mem_cons_of_mem _ (List.mem_append_right _ (List.mem_cons_of_mem _ hu))
    have hsplit : (o :: (inner ++ c' :: us)) ++ c :: rest
        = o :: (inner ++ c' :: (us ++ c :: rest)) := by simp
    rw [hsplit, readBody_block ho hinner hc']
    exact ih hmus
  | other ho hc' hu _ ih =>
    rw [List.cons_append, readBody, ho, hc', hu, if_neg Bool.false_ne_true,
      if_neg Bool.false_ne_true, if_neg (fun h => Bool.false_ne_true h.2)]
    exact ih (hm.of_subset (List.subset_cons_self _ _))

/-! ### Files -/

/-- A declaration is read as its outline, up to its last token. -/
theorem readFrom_referrer {space : String} {r : Referrer} {ts : List Token}
    (h : WritesReferrer space r ts) (hm : MarksInterpolate ts) (rest : List Token) :
    readFrom space (ts ++ rest) = r.outline :: readFrom space rest := by
  cases h with
  | @classHeader parent interfaces word name stop ps is hw hn hp hi hs =>
    have hmps : MarksInterpolate ps := hm.of_subset fun u hu => by simp [hu]
    have hmis : MarksInterpolate is := hm.of_subset fun u hu => by simp [hu]
    have hsplit : (word :: name :: (ps ++ (is ++ [stop]))) ++ rest
        = word :: name :: (ps ++ (is ++ stop :: rest)) := by simp
    have hheader := readHeader_references hp hi hmps hmis (isInName_of_isSymbol hs)
      (endsInterfaces_of_isSemicolon hs) rest
    rw [readHeader_semicolon hs] at hheader
    rw [hsplit, readFrom_declaration (ofToken?_classWord hw) (isKeyword_of_ne hw (by decide)) hn]
    simp only [readOutline, hheader, readTraits, Bool.false_eq_true, and_false, if_false]
    rfl
  | @classBody parent interfaces traits word name o c ps is body hw hn hp hi ho hb hc =>
    have hmps : MarksInterpolate ps := hm.of_subset fun u hu => by simp [hu]
    have hmis : MarksInterpolate is := hm.of_subset fun u hu => by simp [hu]
    have hmbody : MarksInterpolate body := hm.of_subset fun u hu => by simp [hu]
    have hin : o.isInName = false := hm.isInName_of_opensBlock (by simp) ho
    have hsplit : (word :: name :: (ps ++ (is ++ o :: (body ++ [c])))) ++ rest
        = word :: name :: (ps ++ (is ++ o :: (body ++ c :: rest))) := by simp
    have hheader := readHeader_references hp hi hmps hmis hin
      (endsInterfaces_of_opensBlock ho) (body ++ c :: rest)
    rw [readHeader_opensBlock ho] at hheader
    rw [hsplit, readFrom_declaration (ofToken?_classWord hw) (isKeyword_of_ne hw (by decide)) hn]
    simp only [readOutline, hheader, readTraits, and_self, if_true,
      readBody_references hb hmbody hc]
    rfl
  | @interfaceHeader parents word name o ps hw hn hp ho =>
    have hmps : MarksInterpolate ps := hm.of_subset fun u hu => by simp [hu]
    have hin : o.isInName = false := hm.isInName_of_opensBlock (by simp) ho
    have hsplit : (word :: name :: (ps ++ [o])) ++ rest = word :: name :: (ps ++ o :: rest) := by
      simp
    have hheader := readHeader_extendsReferences hp hmps [] hin rest
    rw [readHeader_opensBlock ho] at hheader
    rw [hsplit, readFrom_declaration (ofToken?_interfaceWord hw) (isKeyword_of_ne hw (by decide))
      hn]
    simp only [readOutline, hheader, readTraits, reduceCtorEq, false_and, if_false]
    rfl

/-- **A file is read as the outlines of its declarations.** -/
theorem readFrom_referrers {space : String} {declared : List Referrer} {ts : List Token}
    (h : WritesReferrers space declared ts) (hm : MarksInterpolate ts) :
    readFrom space ts = declared.map Referrer.outline := by
  induction h with
  | done space => rw [readFrom, List.map_nil]
  | inert ht _ ih =>
    rw [readFrom_inert ht]
    exact ih (hm.of_subset (List.subset_cons_self _ _))
  | @namespaceOf space name last declared word stop ts rest hw hn hs _ ih =>
    have hstop : stop ∈ word :: (ts ++ stop :: rest) :=
      List.mem_cons_of_mem _ (List.mem_append_right _ List.mem_cons_self)
    have hin : stop.isInName = false := by
      rcases hs with hs | hs
      · exact isInName_of_isSymbol hs
      · exact hm.isInName_of_opensBlock hstop hs
    rw [readFrom_namespace hw (NamespaceHead.read_segments hn hin hs rest)]
    exact ih (hm.of_subset fun u hu =>
      List.mem_cons_of_mem _ (List.mem_append_right _ (List.mem_cons_of_mem _ hu)))
  | @globalNamespace space declared word o rest hw ho _ ih =>
    have hin := hm.isInName_of_opensBlock (List.mem_cons_of_mem _ List.mem_cons_self) ho
    rw [readFrom_namespace hw (NamespaceHead.read_global hin ho rest)]
    exact ih (hm.of_subset fun u hu => List.mem_cons_of_mem _ (List.mem_cons_of_mem _ hu))
  | @declares space r declared ts rest hr _ ih =>
    rw [readFrom_referrer hr (hm.of_subset (List.subset_append_left ts rest)) rest,
      ih (hm.of_subset (List.subset_append_right ts rest)), List.map_cons]

end Outline

/-! ### Records -/

namespace Reference

variable {refs : List Reference} {lists : List (List Reference)}

theorem length_namesBefore_le (refs : List Reference) :
    (namesBefore refs).length ≤ refs.length := by
  induction refs with
  | nil => exact Nat.le_refl 0
  | cons r refs ih =>
    cases r with
    | named name => exact Nat.succ_le_succ ih
    | relative name => exact Nat.zero_le _

/-- Only where no reference is relative, all of them are there. -/
theorem isNamed_of_length (h : (namesBefore refs).length = refs.length) :
    ∀ r ∈ refs, r.IsNamed := by
  induction refs with
  | nil => exact fun r hr => absurd hr List.not_mem_nil
  | cons r refs ih =>
    cases r with
    | named name =>
      intro s hs
      rcases List.mem_cons.mp hs with rfl | hs
      · exact ⟨name, rfl⟩
      · exact ih (Nat.succ.inj h) s hs
    | relative name => exact absurd h.symm (Nat.succ_ne_zero refs.length)

theorem length_flatMap_namesBefore_le (lists : List (List Reference)) :
    (lists.flatMap namesBefore).length ≤ lists.flatten.length := by
  induction lists with
  | nil => exact Nat.le_refl 0
  | cons refs lists ih =>
    have hle := length_namesBefore_le refs
    rw [List.flatMap_cons, List.flatten_cons, List.length_append, List.length_append]
    omega

theorem isNamed_of_length_flatMap
    (h : (lists.flatMap namesBefore).length = lists.flatten.length) :
    ∀ r ∈ lists.flatten, r.IsNamed := by
  induction lists with
  | nil => exact fun r hr => absurd hr List.not_mem_nil
  | cons refs lists ih =>
    -- neither part has more names than references, so that both have as many
    have hle := length_namesBefore_le refs
    have hmore := length_flatMap_namesBefore_le lists
    rw [List.flatMap_cons, List.flatten_cons, List.length_append, List.length_append] at h
    intro r hr
    rw [List.flatten_cons, List.mem_append] at hr
    rcases hr with hr | hr
    · exact isNamed_of_length (by omega) r hr
    · exact ih (by omega) r hr

theorem namesBefore_append (h : ∀ r ∈ refs, r.IsNamed) (more : List Reference) :
    namesBefore (refs ++ more) = namesBefore refs ++ namesBefore more := by
  induction refs with
  | nil => rfl
  | cons r refs ih =>
    obtain ⟨name, rfl⟩ := h r List.mem_cons_self
    rw [List.cons_append, namesBefore_named, namesBefore_named, List.cons_append,
      ih fun s hs => h s (List.mem_cons_of_mem _ hs)]

theorem flatMap_namesBefore (h : ∀ r ∈ lists.flatten, r.IsNamed) :
    lists.flatMap namesBefore = namesBefore lists.flatten := by
  induction lists with
  | nil => rfl
  | cons refs lists ih =>
    rw [List.flatten_cons] at h
    rw [List.flatMap_cons, List.flatten_cons,
      namesBefore_append fun r hr => h r (List.mem_append_left _ hr),
      ih fun r hr => h r (List.mem_append_right _ hr)]

/-- What is not relative is resolved as any name. -/
theorem map_fullName? (h : ∀ r ∈ refs, r.IsNamed) (imports : ImportTable) (space : String) :
    refs.map (fullName? imports space) = (namesBefore refs).map (Name.resolve imports space) := by
  induction refs with
  | nil => rfl
  | cons r refs ih =>
    obtain ⟨name, rfl⟩ := h r List.mem_cons_self
    rw [List.map_cons, namesBefore_named, List.map_cons,
      ih fun s hs => h s (List.mem_cons_of_mem _ hs)]
    rfl

/-- The first reference is the first name, if it is not relative. -/
theorem head?_namesBefore (h : ∀ r ∈ refs.head?, r.IsNamed) (imports : ImportTable)
    (space : String) :
    refs.head?.map (fullName? imports space)
      = (namesBefore refs).head?.map (Name.resolve imports space) := by
  cases refs with
  | nil => rfl
  | cons r refs =>
    obtain ⟨name, rfl⟩ := h r rfl
    rfl

end Reference

/-- **A record has all references of a declaration exactly if none of them is relative.** -/
theorem Referrer.isKeptIn_iff {imports : ImportTable} {path : String} {r : Referrer}
    {d : Declaration} (h : r.outline.IsRecordedAs imports path d) :
    r.IsKeptIn imports d ↔ r.IsNamed := by
  have hparent : d.parent.map some
      = (Reference.namesBefore r.parents).head?.map (Name.resolve imports r.space) := h.parent
  have hinterfaces : d.interfaces.map some
      = (Reference.namesBefore r.interfaces).map (Name.resolve imports r.space) := h.interfaces
  have htraits : d.traits.map some
      = (r.traits.flatMap Reference.namesBefore).map (Name.resolve imports r.space) := h.traits
  constructor
  · intro hkept
    refine ⟨fun p hp => ?_, Reference.isNamed_of_length ?_,
      Reference.isNamed_of_length_flatMap ?_⟩
    · have hsame := hparent.symm.trans hkept.parent
      cases hps : r.parents with
      | nil =>
        rw [hps] at hp
        exact absurd hp (Option.not_mem_none p)
      | cons q rest =>
        rw [hps] at hp hsame
        obtain rfl : q = p := Option.some.inj hp
        cases q with
        | named name => exact ⟨name, rfl⟩
        | relative name => exact absurd hsame.symm (Option.some_ne_none _)
    · simpa using congrArg List.length (hinterfaces.symm.trans hkept.interfaces)
    · have hlen := congrArg List.length (htraits.symm.trans hkept.traits)
      rwa [List.length_map, List.length_map] at hlen
  · intro hnamed
    refine ⟨?_, ?_, ?_⟩
    · rw [hparent, Reference.head?_namesBefore hnamed.parent]
    · rw [hinterfaces, Reference.map_fullName? hnamed.interfaces]
    · rw [htraits, Reference.flatMap_namesBefore hnamed.traits,
        Reference.map_fullName? hnamed.traits]

theorem Referrer.forall₂_isKeptIn_iff {imports : ImportTable} {path : String}
    {declared : List Referrer} {ds : List Declaration}
    (h : List.Forall₂ (fun r d => r.outline.IsRecordedAs imports path d) declared ds) :
    List.Forall₂ (Referrer.IsKeptIn imports) declared ds ↔ ∀ r ∈ declared, r.IsNamed := by
  induction h with
  | nil => exact iff_of_true .nil fun r hr => absurd hr List.not_mem_nil
  | cons hrecord _ ih =>
    rw [List.forall₂_cons, List.forall_mem_cons, ih, Referrer.isKeptIn_iff hrecord]

open Outline

namespace Declaration

/-- **Relative references are lost, and so is what follows them.**  Whatever trivia stands
between the tokens of a well-formed file and whatever names are imported, the record of each
declaration has, of the parents, of the interfaces, and of the traits of each statement, those
before the first relative reference, each of them resolved; so it has all that is written
exactly if nothing that is written is relative. -/
theorem scanWith_relative {ts : List Token} {declared : List Referrer} (hm : MarksInterpolate ts)
    (h : WritesReferrers "" declared (significant ts)) (imports : ImportTable) (path : String) :
    List.Forall₂ (fun r d => r.outline.IsRecordedAs imports path d) declared
        (scanWith imports path ts) ∧
      (List.Forall₂ (Referrer.IsKeptIn imports) declared (scanWith imports path ts) ↔
        ∀ r ∈ declared, r.IsNamed) := by
  have hread : readAll ts = declared.map Referrer.outline := by
    rw [← readAll_significant hm.opensOutsideNames]
    exact readFrom_referrers h (hm.of_subset (significant_subset ts))
  have hrecords := scanWith_isRecordedAs imports path ts
  rw [hread, List.forall₂_map_left_iff] at hrecords
  exact ⟨hrecords, Referrer.forall₂_isKeptIn_iff hrecords⟩

/-- A class in a namespace with a relative parent, and with relative references in the middle
of its interfaces and of its traits. -/
def relativeFile : List Token :=
  [⟨.keyword .namespaceWord, "namespace", 1⟩, ⟨.whitespace, " ", 1⟩, ⟨.name, "App", 1⟩,
    ⟨.symbol, ";", 1⟩, ⟨.keyword .classWord, "class", 2⟩, ⟨.whitespace, " ", 2⟩, ⟨.name, "C", 2⟩,
    ⟨.keyword .extendsWord, "extends", 2⟩, ⟨.keyword .namespaceWord, "namespace", 2⟩,
    ⟨.separator, "\\", 2⟩, ⟨.name, "P", 2⟩, ⟨.keyword .implementsWord, "implements", 2⟩,
    ⟨.name, "A", 2⟩, ⟨.symbol, ",", 2⟩, ⟨.keyword .namespaceWord, "namespace", 2⟩,
    ⟨.separator, "\\", 2⟩, ⟨.name, "B", 2⟩, ⟨.symbol, ",", 2⟩, ⟨.name, "D", 2⟩,
    ⟨.symbol, "\x7b", 2⟩, ⟨.keyword .useWord, "use", 3⟩, ⟨.name, "T", 3⟩, ⟨.symbol, ",", 3⟩,
    ⟨.keyword .namespaceWord, "namespace", 3⟩, ⟨.separator, "\\", 3⟩, ⟨.name, "U", 3⟩,
    ⟨.symbol, ",", 3⟩, ⟨.name, "V", 3⟩, ⟨.symbol, ";", 3⟩, ⟨.symbol, "\x7d", 4⟩]

/-- What the file declares. -/
def relativeReferrer : Referrer :=
  ⟨.classKind, "C", "App", [.relative "P"], [.named "A", .relative "B", .named "D"],
    [[.named "T", .relative "U", .named "V"]]⟩

theorem writesReferrers_relativeFile :
    WritesReferrers "" [relativeReferrer] (significant relativeFile) := by
  have hsegment : ∀ (text : String) (line : Nat), text ≠ "" →
      text.toList.any Name.isSeparator = false → WritesSegments text text [⟨.name, text, line⟩] :=
    fun text line hne hall => .one (t := ⟨.name, text, line⟩) ⟨rfl, hne, hall⟩
  have hnamed : ∀ (text : String) (line : Nat), text ≠ "" →
      text.toList.any Name.isSeparator = false →
        WritesReference (.named text) [⟨.name, text, line⟩] :=
    fun text line hne hall => .named (.plain (hsegment text line hne hall))
  have hrelative : ∀ (text : String) (line : Nat), text ≠ "" →
      text.toList.any Name.isSeparator = false →
        WritesReference (.relative text) [⟨.keyword .namespaceWord, "namespace", line⟩,
          ⟨.separator, "\\", line⟩, ⟨.name, text, line⟩] :=
    fun text line hne hall => .relative rfl rfl (hsegment text line hne hall)
  have hparent : WritesReferenceClause .extendsWord (some (Reference.relative "P")).toList
      [⟨.keyword .extendsWord, "extends", 2⟩, ⟨.keyword .namespaceWord, "namespace", 2⟩,
        ⟨.separator, "\\", 2⟩, ⟨.name, "P", 2⟩] :=
    .present rfl (.one (hrelative "P" 2 (by decide) (by decide)))
  have hlist : ∀ (first middle last : String) (line : Nat),
      (first ≠ "" ∧ first.toList.any Name.isSeparator = false) →
      (middle ≠ "" ∧ middle.toList.any Name.isSeparator = false) →
      (last ≠ "" ∧ last.toList.any Name.isSeparator = false) →
        WritesReferences [.named first, .relative middle, .named last]
          [⟨.name, first, line⟩, ⟨.symbol, ",", line⟩,
            ⟨.keyword .namespaceWord, "namespace", line⟩, ⟨.separator, "\\", line⟩,
            ⟨.name, middle, line⟩, ⟨.symbol, ",", line⟩, ⟨.name, last, line⟩] :=
    fun first middle last line hf hm hl =>
      .more (hnamed first line hf.1 hf.2) rfl (.more (hrelative middle line hm.1 hm.2) rfl
        (.one (hnamed last line hl.1 hl.2)))
  have hinterfaces := hlist "A" "B" "D" 2 (by decide) (by decide) (by decide)
  have htraits := hlist "T" "U" "V" 3 (by decide) (by decide) (by decide)
  have hbody := @WritesTraits.traits ⟨.keyword .useWord, "use", 3⟩ ⟨.symbol, ";", 3⟩ _ _ _ _ rfl
    htraits rfl .nil
  have hclass := @WritesReferrer.classBody "App" _ _ _ ⟨.keyword .classWord, "class", 2⟩
    ⟨.name, "C", 2⟩ ⟨.symbol, "\x7b", 2⟩ ⟨.symbol, "\x7d", 4⟩ _ _ _ rfl rfl hparent
    (@WritesReferenceClause.present _ ⟨.keyword .implementsWord, "implements", 2⟩ _ _ rfl
      hinterfaces) rfl hbody rfl
  exact .namespaceOf rfl (hsegment "App" 1 (by decide) (by decide)) (.inl rfl)
    (.declares hclass (.done "App"))

theorem scanWith_relative_lists :
    MarksInterpolate relativeFile ∧
      WritesReferrers "" [relativeReferrer] (significant relativeFile) ∧
      List.Forall₂ (fun r d => r.outline.IsRecordedAs [] "C.php" d) [relativeReferrer]
        (scanWith [] "C.php" relativeFile) ∧
      (List.Forall₂ (Referrer.IsKeptIn []) [relativeReferrer]
          (scanWith [] "C.php" relativeFile) ↔ ∀ r ∈ [relativeReferrer], r.IsNamed) := by
  have hm : MarksInterpolate relativeFile := by simp [MarksInterpolate, relativeFile]
  have h := writesReferrers_relativeFile
  exact ⟨hm, h, scanWith_relative hm h [] "C.php"⟩

/-- **Relative references are lost, and others with them.**  The class extends `App\P`, implements
`App\A`, `App\B` and `App\D`, and uses `App\T`, `App\U` and `App\V`, but its record has no
parent, one interface and one trait. -/
theorem not_isKeptIn_relative :
    MarksInterpolate relativeFile ∧
      WritesReferrers "" [relativeReferrer] (significant relativeFile) ∧
      (scanWith [] "C.php" relativeFile).map (fun d => (d.parent, d.interfaces, d.traits))
        = [(none, ["App\\A"], ["App\\T"])] ∧
      ¬ List.Forall₂ (Referrer.IsKeptIn []) [relativeReferrer]
          (scanWith [] "C.php" relativeFile) := by
  have hm : MarksInterpolate relativeFile := by simp [MarksInterpolate, relativeFile]
  have hscan : (scanWith [] "C.php" relativeFile).map (fun d => (d.parent, d.interfaces, d.traits))
      = [(none, ["App\\A"], ["App\\T"])] := by decide +kernel
  refine ⟨hm, writesReferrers_relativeFile, hscan, fun h => ?_⟩
  cases hd : scanWith [] "C.php" relativeFile with
  | nil =>
    rw [hd] at h
    cases h
  | cons d ds =>
    rw [hd, List.forall₂_cons] at h
    rw [hd, List.map_cons, List.cons.injEq, Prod.mk.injEq] at hscan
    -- the record has no parent, though one is written
    have hparent := h.1.parent
    rw [hscan.1.1] at hparent
    exact absurd hparent.symm (Option.some_ne_none _)

end Declaration
end ClassLineage
