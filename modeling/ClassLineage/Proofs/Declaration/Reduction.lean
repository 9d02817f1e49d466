import ClassLineage.Declaration.Scan
import ClassLineage.Proofs.Import.Reduction

/-!
# What the scanner of declarations looks at

Each phase of reading a declaration gives the same on a list of tokens and on the list
reduced to the roles of its tokens, with or without its trivia, and leaves the same tokens,
reduced.  So the outlines of a file depend on the roles of its significant tokens alone.

## Main results

* `Outline.readNames_filterMap`, `Outline.readHeader_filterMap`,
  `Outline.readBody_filterMap` — the phases.
* `Outline.readAll_filterMap` — **the outlines of a file.**
* `Declaration.scan_significant` — **blanks and comments never matter.**
-/

namespace ClassLineage

open Token

namespace Outline

section Reduction

variable {φ : Token → Option Token} {ts : List Token}

/-! ### Short names -/

theorem isModifier_of_isTrivia {t : Token} (h : t.isTrivia = true) : isModifier t = true := by
  simp [isModifier, h]

theorem isTrivia_of_isModifier {t : Token} (h : isModifier t = false) : t.isTrivia = false := by
  rw [isModifier, Bool.or_assoc, Bool.or_eq_false_iff] at h
  exact h.1

theorem isModifier_of_sameRole {t u : Token} (h : SameRole t u) : isModifier u = isModifier t := by
  rw [isModifier, isModifier, h.isTrivia, h.isKeyword, h.isKeyword]

theorem isShortName_of_sameRole {t u : Token} (h : SameRole t u) :
    isShortName u = isShortName t := by
  rw [isShortName, isShortName, h.kind]
  by_cases hk : t.kind = .name
  · rw [h.text_of_name hk]
  · have hkind : (t.kind == .name) = false := beq_eq_false_iff_ne.mpr hk
    rw [hkind, Bool.false_and, Bool.false_and]

theorem ofToken?_of_sameRole {t u : Token} (h : SameRole t u) :
    DeclarationKind.ofToken? u = DeclarationKind.ofToken? t := by
  rw [DeclarationKind.ofToken?, DeclarationKind.ofToken?, h.isKeyword, h.isKeyword]

theorem readShortName_filterMap (h : Reduces φ ts) :
    readShortName (ts.filterMap φ) = (readShortName ts).map id (List.filterMap φ) := by
  have hdrop := dropWhile_filterMap_of_role (fun _ => isModifier_of_isTrivia)
    (fun _ _ => isModifier_of_sameRole) h
  rw [readShortName, readShortName, hdrop]
  cases hd : ts.dropWhile isModifier with
  | nil => rfl
  | cons t rest =>
    have ht : t.isTrivia = false := by
      have hne : ts.dropWhile isModifier ≠ [] := by rw [hd]; exact List.cons_ne_nil _ _
      have hhead := List.head_dropWhile_not isModifier hne
      simp only [hd, List.head_cons] at hhead
      exact isTrivia_of_isModifier hhead
    obtain ⟨u, hφ, hrole⟩ := (h.of_suffix (hd ▸ List.dropWhile_suffix _)).kept ht
    rw [List.filterMap_cons_some hφ]
    dsimp only
    rw [isShortName_of_sameRole hrole]
    split
    · next hn =>
      rw [isShortName, Bool.and_eq_true, beq_iff_eq] at hn
      rw [hrole.text_of_name hn.1]
      rfl
    · rw [Prod.map_apply, List.filterMap_cons_some hφ]
      rfl

/-! ### Lists of names -/

/-- A list of names is read alike where the token that ends it is known by its role, and
trivia that may be dropped does not end it. -/
theorem readNames_filterMap {ends : Token → Bool} (h : Reduces φ ts)
    (hends : ∀ t ∈ ts, φ t = none → ends t = false)
    (hrole : ∀ t u : Token, SameRole t u → ends u = ends t) :
    readNames ends (ts.filterMap φ) = (readNames ends ts).map id (List.filterMap φ) := by
  fun_induction readNames ends ts with
  | case1 => rw [List.filterMap_nil, readNames_nil]; rfl
  | case2 t rest he =>
    rcases h.cons_cases with ⟨hφ, -, -⟩ | ⟨u, hφ, hr⟩
    · rw [hends t List.mem_cons_self hφ] at he
      exact absurd he Bool.false_ne_true
    · rw [Prod.map_apply, List.filterMap_cons_some hφ, readNames_of_ends (by rw [hrole t u hr, he])]
      rfl
  | case3 t rest he hb ih =>
    rw [Bool.not_eq_true] at he
    have ih' := ih h.tail fun v hv => hends v (List.mem_cons_of_mem _ hv)
    rcases h.cons_cases with ⟨hφ, -, -⟩ | ⟨u, hφ, hr⟩
    · rw [List.filterMap_cons_none hφ, ih']
    · rw [List.filterMap_cons_some hφ, readNames_of_between (by rw [hrole t u hr, he])
        (by rw [hr.isComma, hr.isTrivia, hb]), ih']
  | case4 t rest he hb after hc =>
    rw [Bool.not_eq_true] at he hb
    obtain ⟨u, hφ, hr⟩ := h.kept (Bool.or_eq_false_iff.mp hb).2
    have hc' := collectName_filterMap h
    rw [hc, List.filterMap_cons_some hφ] at hc'
    rw [List.filterMap_cons_some hφ, readNames_of_none (by rw [hrole t u hr, he])
      (by rw [hr.isComma, hr.isTrivia, hb]) hc']
    rfl
  | case5 t rest he hb name after hc _ more ih =>
    rw [Bool.not_eq_true] at he hb
    obtain ⟨u, hφ, hr⟩ := h.kept (Bool.or_eq_false_iff.mp hb).2
    have hs : after <:+ t :: rest := suffix_of_collectName hc
    have hc' := collectName_filterMap h
    rw [hc, List.filterMap_cons_some hφ] at hc'
    rw [List.filterMap_cons_some hφ, readNames_of_some (by rw [hrole t u hr, he])
      (by rw [hr.isComma, hr.isTrivia, hb]) hc',
      ih (h.of_suffix hs) fun v hv => hends v (hs.subset hv)]
    rfl

/-- The names of a list of interfaces. -/
theorem readInterfaces_filterMap (h : Reduces φ ts) :
    readNames endsInterfaces (ts.filterMap φ)
      = (readNames endsInterfaces ts).map id (List.filterMap φ) := by
  refine readNames_filterMap h (fun t ht hφ => ?_) fun t u hr => ?_
  -- trivia ends no list, since where any is dropped it opens no block
  · have htrivia := h.drops t ht hφ
    rcases h.quiet with hk | hq
    · have hsome := hk t ht
      rw [hφ] at hsome
      exact absurd hsome Bool.false_ne_true
    · rw [endsInterfaces, hq t ht (isInName_of_isTrivia htrivia),
        isSemicolon_of_isTrivia htrivia]
      rfl
  · rw [endsInterfaces, endsInterfaces, hr.opensBlock, hr.isSemicolon]

/-- The names of a list of traits. -/
theorem readTraits_names_filterMap (h : Reduces φ ts) :
    readNames endsTraits (ts.filterMap φ)
      = (readNames endsTraits ts).map id (List.filterMap φ) := by
  refine readNames_filterMap h (fun t ht hφ => ?_) fun t u hr => ?_
  · rw [endsTraits, h.drops t ht hφ]
    rfl
  · rw [endsTraits, endsTraits, hr.isTrivia, hr.opensBlock, hr.isSemicolon]

/-! ### Headers and bodies -/

theorem readHeader_filterMap (h : Reduces φ ts) (parent : Option String)
    (interfaces : List String) :
    readHeader parent interfaces (ts.filterMap φ)
      = { readHeader parent interfaces ts with
          rest := (readHeader parent interfaces ts).rest.filterMap φ } := by
  fun_induction readHeader parent interfaces ts with
  | case1 => rw [List.filterMap_nil, readHeader]
  | case2 p is t ts ho =>
    obtain ⟨u, hφ, hr⟩ := h.opened ho
    rw [List.filterMap_cons_some hφ, readHeader, hr.opensBlock, if_pos ho]
  | case3 p is t ts ho hs =>
    obtain ⟨u, hφ, hr⟩ := h.kept (isTrivia_of_isSymbol hs)
    rw [List.filterMap_cons_some hφ, readHeader, hr.opensBlock, hr.isSemicolon, if_neg ho,
      if_pos hs]
  | case4 p is t ts ho hs he _ ih =>
    obtain ⟨u, hφ, hr⟩ := h.kept (isTrivia_of_isKeyword he)
    have ih' := ih (h.tail.of_suffix (collectName_suffix ts))
    rw [List.filterMap_cons_some hφ, readHeader, hr.opensBlock, hr.isSemicolon, hr.isKeyword,
      if_neg ho, if_neg hs, if_pos he, collectName_filterMap h.tail, Prod.map_fst, Prod.map_snd]
    exact ih'
  | case5 p is t ts ho hs he hi _ list ih =>
    obtain ⟨u, hφ, hr⟩ := h.kept (isTrivia_of_isKeyword hi)
    have ih' := ih (h.tail.of_suffix (readNames_suffix endsInterfaces ts))
    rw [List.filterMap_cons_some hφ, readHeader, hr.opensBlock, hr.isSemicolon, hr.isKeyword,
      hr.isKeyword, if_neg ho, if_neg hs, if_neg he, if_pos hi, readInterfaces_filterMap h.tail]
    exact ih'
  | case6 p is t ts ho hs he hi ih =>
    have ih' := ih h.tail
    rcases h.cons_cases with ⟨hφ, -, -⟩ | ⟨u, hφ, hr⟩
    · rw [List.filterMap_cons_none hφ]
      exact ih'
    · rw [List.filterMap_cons_some hφ, readHeader, hr.opensBlock, hr.isSemicolon, hr.isKeyword,
        hr.isKeyword, if_neg ho, if_neg hs, if_neg he, if_neg hi]
      exact ih'

/-- A list of names stops at a token that ends it, or at one that is no name. -/
theorem readNames_stop {ends : Token → Bool} {t : Token} {rest : List Token}
    (h : (readNames ends ts).2 = t :: rest) : ends t = true ∨ t.isInName = false := by
  fun_induction readNames ends ts with
  | case1 => exact absurd h.symm (List.cons_ne_nil _ _)
  | case2 u us he =>
    obtain ⟨rfl, -⟩ := List.cons.inj h
    exact Or.inl he
  | case3 u us he hb ih => exact ih h
  | case4 u us he hb after hc =>
    have hleft : (collectName (u :: us)).2 = t :: rest := by
      rw [hc]
      exact h
    exact Or.inr (isInName_of_collectName hleft)
  | case5 u us he hb name after hc _ more ih => exact ih h

theorem readTraitUse_filterMap (h : Reduces φ ts) :
    readTraitUse (ts.filterMap φ) = (readTraitUse ts).map id (List.filterMap φ) := by
  have hs : Reduces φ (readNames endsTraits ts).2 := h.of_suffix (readNames_suffix endsTraits ts)
  rw [readTraitUse, readTraitUse, readTraits_names_filterMap h]
  cases hrest : (readNames endsTraits ts).2 with
  | nil => simp [hrest]
  | cons t rest =>
    rw [hrest] at hs
    -- the names stop at a token that is no trivia, so that it is kept
    have ht : t.isTrivia = false := by
      rcases readNames_stop hrest with he | hn
      · rw [endsTraits, Bool.and_eq_true, Bool.not_eq_true'] at he
        exact he.1
      · exact isTrivia_of_isInName hn
    obtain ⟨u, hφ, hr⟩ := hs.kept ht
    simp only [Prod.map_snd, Prod.map_fst, hrest, List.filterMap_cons_some hφ, hr.isSemicolon,
      hr.opensBlock]
    split
    · rfl
    · split
      · rw [← List.filterMap_cons_some hφ, skipBalanced_filterMap hs]
        rfl
      · rw [Prod.map_apply, List.filterMap_cons_some hφ]

theorem readBody_filterMap (h : Reduces φ ts) (depth : Nat) :
    readBody depth (ts.filterMap φ) = (readBody depth ts).map id (List.filterMap φ) := by
  fun_induction readBody depth ts with
  | case1 => rw [List.filterMap_nil, readBody]; rfl
  | case2 d t ts ho ih =>
    obtain ⟨u, hφ, hr⟩ := h.opened ho
    rw [List.filterMap_cons_some hφ, readBody, hr.opensBlock, if_pos ho]
    exact ih h.tail
  | case3 d t ts ho hc hd =>
    obtain ⟨u, hφ, hr⟩ := h.kept (isTrivia_of_isSymbol hc)
    rw [List.filterMap_cons_some hφ, readBody, hr.opensBlock, hr.closesBlock, if_neg ho, if_pos hc,
      if_pos hd]
    rfl
  | case4 d t ts ho hc hd ih =>
    obtain ⟨u, hφ, hr⟩ := h.kept (isTrivia_of_isSymbol hc)
    rw [List.filterMap_cons_some hφ, readBody, hr.opensBlock, hr.closesBlock, if_neg ho, if_pos hc,
      if_neg hd]
    exact ih h.tail
  | case5 d t ts ho hc hu _ used more ih =>
    obtain ⟨u, hφ, hr⟩ := h.kept (isTrivia_of_isKeyword hu.2)
    have ih' := ih (h.tail.of_suffix (readTraitUse_suffix ts))
    rw [List.filterMap_cons_some hφ, readBody, hr.opensBlock, hr.closesBlock, hr.isKeyword,
      if_neg ho, if_neg hc, if_pos hu, readTraitUse_filterMap h.tail]
    show (used.1 ++ (readBody d (used.2.filterMap φ)).1, (readBody d (used.2.filterMap φ)).2) = _
    rw [ih']
    rfl
  | case6 d t ts ho hc hu ih =>
    have ih' := ih h.tail
    rcases h.cons_cases with ⟨hφ, -, -⟩ | ⟨u, hφ, hr⟩
    · rw [List.filterMap_cons_none hφ]
      exact ih'
    · rw [List.filterMap_cons_some hφ, readBody, hr.opensBlock, hr.closesBlock, hr.isKeyword,
        if_neg ho, if_neg hc, if_neg hu]
      exact ih'

theorem readTraits_filterMap (kind : DeclarationKind) {header : Header}
    (h : Reduces φ header.rest) :
    readTraits kind { header with rest := header.rest.filterMap φ }
      = (readTraits kind header).map id (List.filterMap φ) := by
  rw [readTraits, readTraits]
  split
  · exact readBody_filterMap h 1
  · rfl

theorem readOutline_filterMap (kind : DeclarationKind) (space shortName : String)
    (h : Reduces φ ts) :
    readOutline kind space shortName (ts.filterMap φ)
      = (readOutline kind space shortName ts).map id (List.filterMap φ) := by
  have hrest := h.of_suffix (readHeader_suffix none [] ts)
  have htraits := readTraits_filterMap kind hrest
  rw [readOutline, readOutline]
  simp only [readHeader_filterMap h, htraits, Prod.map_fst, Prod.map_snd, id]
  rfl

/-! ### Files -/

theorem ofToken?_of_isTrivia {t : Token} (h : t.isTrivia = true) :
    DeclarationKind.ofToken? t = none := by
  simp [DeclarationKind.ofToken?, isKeyword_of_isTrivia h]

theorem isTrivia_of_ofToken? {t : Token} {kind : DeclarationKind}
    (h : DeclarationKind.ofToken? t = some kind) : t.isTrivia = false := by
  rw [← Bool.not_eq_true]
  intro ht
  rw [ofToken?_of_isTrivia ht] at h
  exact Option.some_ne_none kind h.symm

theorem readFrom_filterMap (h : Reduces φ ts) (space : String) :
    readFrom space (ts.filterMap φ) = readFrom space ts := by
  fun_induction readFrom space ts with
  | case1 => rw [List.filterMap_nil, readFrom]
  | case2 space t ts hn _ ih =>
    obtain ⟨u, hφ, hr⟩ := h.kept (isTrivia_of_isKeyword hn)
    have ih' := ih (h.tail.of_suffix (NamespaceHead.read_suffix ts))
    rw [List.filterMap_cons_some hφ, readFrom, hr.isKeyword, if_pos hn,
      NamespaceHead.read_filterMap h.tail]
    exact ih'
  | case3 space t ts hn hk ih =>
    have ih' := ih h.tail
    rcases h.cons_cases with ⟨hφ, -, -⟩ | ⟨u, hφ, hr⟩
    · rw [List.filterMap_cons_none hφ]
      exact ih'
    · rw [List.filterMap_cons_some hφ, readFrom, hr.isKeyword, if_neg hn,
        ofToken?_of_sameRole hr, hk]
      exact ih'
  | case4 space t ts hn kind hk _ hname ih =>
    obtain ⟨u, hφ, hr⟩ := h.kept (isTrivia_of_ofToken? hk)
    have ih' := ih (h.tail.of_suffix (readShortName_suffix ts))
    rw [List.filterMap_cons_some hφ, readFrom, hr.isKeyword, if_neg hn, ofToken?_of_sameRole hr,
      hk]
    simp only [readShortName_filterMap h.tail, Prod.map_fst, Prod.map_snd, hname, id]
    exact ih'
  | case5 space t ts hn kind hk _ shortName hname _ ih =>
    obtain ⟨u, hφ, hr⟩ := h.kept (isTrivia_of_ofToken? hk)
    have hs := h.tail.of_suffix (readShortName_suffix ts)
    have ih' := ih (hs.of_suffix (readOutline_suffix kind space shortName _))
    rw [List.filterMap_cons_some hφ, readFrom, hr.isKeyword, if_neg hn, ofToken?_of_sameRole hr,
      hk]
    simp only [readShortName_filterMap h.tail, Prod.map_fst, Prod.map_snd, hname, id,
      readOutline_filterMap kind space shortName hs]
    rw [ih']

/-- **The outlines of a file depend on the roles of its significant tokens alone.** -/
theorem readAll_filterMap (h : Reduces φ ts) : readAll (ts.filterMap φ) = readAll ts :=
  readFrom_filterMap h ""

theorem readAll_significant (h : OpensOutsideNames ts) : readAll (significant ts) = readAll ts := by
  rw [significant_eq_filterMap, readAll_filterMap (reduces_guard h)]

/-- Tokens with the same roles declare the same. -/
theorem readAll_congr {us : List Token} (h : List.Forall₂ SameRole ts us) :
    readAll us = readAll ts := by
  rw [← readAll_filterMap (reduces_role us), filterMap_role_eq h,
    readAll_filterMap (reduces_role ts)]

end Reduction

end Outline

namespace Declaration

/-- **Blanks and comments never matter.**  Whatever the tokens are, as long as none of the
pieces of names and of the trivia is written like the start of an interpolation, a file
without its trivia has the same imports and the same declarations, by its own imports and by
any others. -/
theorem scan_significant {ts : List Token} (h : ∀ t ∈ ts, t.isInName = true → t.text ≠ "$\x7b") :
    ImportTable.ofTokens (significant ts) = ImportTable.ofTokens ts ∧
      ∀ path, scan path (significant ts) = scan path ts ∧
        ∀ imports, scanWith imports path (significant ts) = scanWith imports path ts := by
  have hquiet : OpensOutsideNames ts := opensOutsideNames_iff.mpr h
  have htable : ImportTable.ofTokens (significant ts) = ImportTable.ofTokens ts :=
    ImportTable.ofTokens_significant hquiet
  have hscan : ∀ imports path,
      scanWith imports path (significant ts) = scanWith imports path ts := by
    intro imports path
    rw [scanWith, scanWith, Outline.readAll_significant hquiet]
  refine ⟨htable, fun path => ⟨?_, fun imports => hscan imports path⟩⟩
  rw [scan, scan, htable, hscan]

/-- A comment at each place where trivia is passed over: in the name of a namespace, before an
alias, in a group that is not closed, between a keyword and a short name, in a list of
interfaces that ends in a comma, and before the adaptations of a trait in a body that is not
closed. -/
def commentedFile : List Token :=
  [⟨.keyword .namespaceWord, "namespace", 1⟩, ⟨.comment, "/* a */", 1⟩, ⟨.name, "App", 1⟩,
    ⟨.whitespace, " ", 1⟩, ⟨.separator, "\\", 1⟩, ⟨.comment, "/* b */", 1⟩, ⟨.name, "Web", 1⟩,
    ⟨.symbol, ";", 1⟩, ⟨.keyword .useWord, "use", 2⟩, ⟨.name, "Lib", 2⟩, ⟨.comment, "/* c */", 2⟩,
    ⟨.keyword .asWord, "as", 2⟩, ⟨.comment, "/* d */", 2⟩, ⟨.name, "L", 2⟩,
    ⟨.comment, "/* e */", 2⟩, ⟨.symbol, ",", 2⟩, ⟨.name, "Base", 2⟩, ⟨.comment, "/* f */", 2⟩, ⟨.symbol, "\x7b", 2⟩,
    ⟨.comment, "/* g */", 2⟩, ⟨.name, "One", 2⟩, ⟨.symbol, ";", 2⟩,
    ⟨.keyword .classWord, "class", 3⟩, ⟨.comment, "/* h */", 3⟩, ⟨.name, "Shop", 3⟩,
    ⟨.keyword .implementsWord, "implements", 3⟩, ⟨.comment, "/* i */", 3⟩, ⟨.name, "L", 3⟩,
    ⟨.symbol, ",", 3⟩, ⟨.comment, "/* j */", 3⟩, ⟨.symbol, "\x7b", 3⟩,
    ⟨.keyword .useWord, "use", 4⟩, ⟨.name, "One", 4⟩, ⟨.comment, "/* k */", 4⟩,
    ⟨.symbol, "\x7b", 4⟩, ⟨.symbol, "\x7d", 4⟩, ⟨.comment, "// l", 5⟩]

theorem scan_significant_commented :
    (∀ t ∈ commentedFile, t.isInName = true → t.text ≠ "$\x7b") ∧
      (significant commentedFile).length = 24 ∧
      (scan "Shop.php" (significant commentedFile)).map (fun d => (d.name, d.interfaces, d.traits))
        = [("App\\Web\\Shop", ["Lib"], ["Base\\One"])] ∧
      ImportTable.ofTokens (significant commentedFile) = ImportTable.ofTokens commentedFile ∧
      scan "Shop.php" (significant commentedFile) = scan "Shop.php" commentedFile ∧
      scanWith [] "Shop.php" (significant commentedFile)
        = scanWith [] "Shop.php" commentedFile := by
  have h : ∀ t ∈ commentedFile, t.isInName = true → t.text ≠ "$\x7b" := by decide
  obtain ⟨htable, hscan⟩ := scan_significant h
  exact ⟨h, by decide, by decide +kernel, htable, (hscan "Shop.php").1, (hscan "Shop.php").2 []⟩

end Declaration
end ClassLineage
