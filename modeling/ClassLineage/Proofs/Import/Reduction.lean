import ClassLineage.Import
import ClassLineage.Proofs.Token.Reduction

/-!
# What the reader of imports looks at

The readers of aliases, groups and statements give the same on a list of tokens and on the
list reduced to the roles of its tokens, with or without its trivia, and leave the same
tokens, reduced.  So the imports of a file depend on the roles of its significant tokens
alone.

## Main results

* `Import.readGroup_filterMap`, `Import.readClauses_filterMap` — groups and statements.
* `ImportTable.collect_filterMap` — **the imports of a file.**
-/

namespace ClassLineage

open Token

namespace Import

section Reduction

variable {φ : Token → Option Token} {ts : List Token}

/-! ### Clauses and groups -/

theorem readAlias_filterMap (h : Reduces φ ts) :
    readAlias (ts.filterMap φ) = (readAlias ts).map id (List.filterMap φ) := by
  rw [readAlias, readAlias]
  cases hs : skipTrivia ts with
  | nil => rw [skipTrivia_filterMap_nil h hs]; rfl
  | cons t rest =>
    obtain ⟨u, hφ, hr, heq⟩ := skipTrivia_filterMap_cons h hs
    have hrest : Reduces φ rest :=
      h.of_suffix ((List.suffix_cons t rest).trans (hs ▸ skipTrivia_suffix ts))
    rw [heq]
    dsimp only
    rw [hr.isKeyword]
    split
    · cases hs' : skipTrivia rest with
      | nil => rw [skipTrivia_filterMap_nil hrest hs']; rfl
      | cons n more =>
        obtain ⟨m, hφ', hr', heq'⟩ := skipTrivia_filterMap_cons hrest hs'
        rw [heq']
        dsimp only
        rw [hr'.kind]
        split
        · next hk => rw [hr'.text_of_name (beq_iff_eq.mp hk)]; rfl
        · rw [Prod.map_apply, List.filterMap_cons_some hφ']
          rfl
    · rw [Prod.map_apply, List.filterMap_cons_some hφ]
      rfl

theorem skipMember_filterMap (h : Reduces φ ts) :
    skipMember (ts.filterMap φ) = (skipMember ts).filterMap φ := by
  refine dropWhile_filterMap_of_role (fun t ht => ?_) (fun t u hr => ?_) h
  · rw [isComma_of_isTrivia ht, closesBlock_of_isTrivia ht, isSemicolon_of_isTrivia ht]
    rfl
  · rw [hr.isComma, hr.closesBlock, hr.isSemicolon]

theorem isOtherImport_of_sameRole {t u : Token} (h : SameRole t u) :
    isOtherImport u = isOtherImport t := by
  rw [isOtherImport, isOtherImport, h.isKeyword, h.isKeyword]

theorem readGroup_filterMap (base : String) (h : Reduces φ ts) (imports : ImportTable) :
    readGroup base (ts.filterMap φ) imports
      = (readGroup base ts imports).map id (List.filterMap φ) := by
  -- the cases are those of the reader: the end, a brace, a comma, a function or constant, what
  -- is no name, and a name with its alias
  have hleft : ∀ {t : Token} {ts rest : List Token}, Reduces φ ts → skipTrivia ts = t :: rest →
      Reduces φ (t :: rest) := fun h hs => h.of_suffix (hs ▸ skipTrivia_suffix _)
  fun_induction readGroup base ts imports with
  | case1 ts imports hs => rw [readGroup_of_nil base imports (skipTrivia_filterMap_nil h hs)]; rfl
  | case2 ts imports t rest hs _ hc =>
    obtain ⟨u, hφ, hr, heq⟩ := skipTrivia_filterMap_cons h hs
    rw [readGroup_of_cons base imports heq, hr.closesBlock, if_pos hc]
    rfl
  | case3 ts imports t rest hs _ hc hcomma ih =>
    obtain ⟨u, hφ, hr, heq⟩ := skipTrivia_filterMap_cons h hs
    rw [readGroup_of_cons base imports heq, hr.closesBlock, hr.isComma, if_neg hc, if_pos hcomma,
      ih (hleft h hs).tail]
  | case4 ts imports t rest hs _ hc hcomma ho _ ih =>
    obtain ⟨u, hφ, hr, heq⟩ := skipTrivia_filterMap_cons h hs
    have hrest := (hleft h hs).tail
    rw [readGroup_of_cons base imports heq, hr.closesBlock, hr.isComma,
      isOtherImport_of_sameRole hr, if_neg hc, if_neg hcomma, if_pos ho,
      skipMember_filterMap hrest, ih (hrest.of_suffix (skipMember_suffix rest))]
  | case5 ts imports t rest hs _ hc hcomma ho after hn hsemi =>
    obtain ⟨u, hφ, hr, heq⟩ := skipTrivia_filterMap_cons h hs
    have hn' := collectName_filterMap (hleft h hs)
    rw [hn, List.filterMap_cons_some hφ] at hn'
    rw [readGroup_of_cons base imports heq, hr.closesBlock, hr.isComma,
      isOtherImport_of_sameRole hr, if_neg hc, if_neg hcomma, if_neg ho, hn']
    simp only [Prod.map_apply, id, hr.isSemicolon, List.filterMap_cons_some hφ]
    rw [if_pos hsemi]
  | case6 ts imports t rest hs _ hc hcomma ho after hn hsemi ih =>
    obtain ⟨u, hφ, hr, heq⟩ := skipTrivia_filterMap_cons h hs
    have hn' := collectName_filterMap (hleft h hs)
    rw [hn, List.filterMap_cons_some hφ] at hn'
    rw [readGroup_of_cons base imports heq, hr.closesBlock, hr.isComma,
      isOtherImport_of_sameRole hr, if_neg hc, if_neg hcomma, if_neg ho, hn']
    simp only [Prod.map_apply, id, hr.isSemicolon]
    rw [if_neg hsemi]
    exact ih (hleft h hs).tail
  | case7 ts imports t rest hs _ hc hcomma ho name after hn _ member full ih =>
    obtain ⟨u, hφ, hr, heq⟩ := skipTrivia_filterMap_cons h hs
    have hafter : Reduces φ after := (hleft h hs).of_suffix (suffix_of_collectName hn)
    have hn' := collectName_filterMap (hleft h hs)
    rw [hn, List.filterMap_cons_some hφ] at hn'
    rw [readGroup_of_cons base imports heq, hr.closesBlock, hr.isComma,
      isOtherImport_of_sameRole hr, if_neg hc, if_neg hcomma, if_neg ho, hn']
    simp only [Prod.map_apply, id, readAlias_filterMap hafter]
    exact ih (hafter.of_suffix (readAlias_suffix after))

/-- What follows a name keeps its role. -/
theorem head?_of_collectName (h : Reduces φ ts) {after : List Token} {name : Option String}
    (hc : collectName ts = (name, after)) :
    (after.filterMap φ).head?.any Token.opensBlock = after.head?.any Token.opensBlock ∧
      (after.filterMap φ).tail = after.tail.filterMap φ := by
  cases after with
  | nil => exact ⟨rfl, rfl⟩
  | cons t rest =>
    have ht : t.isTrivia = false :=
      isTrivia_of_isInName (isInName_of_collectName (congrArg Prod.snd hc))
    obtain ⟨u, hφ, hr⟩ := (h.of_suffix (suffix_of_collectName hc)).kept ht
    rw [List.filterMap_cons_some hφ]
    exact ⟨hr.opensBlock, rfl⟩

/-! ### Statements -/

theorem readClauses_filterMap (h : Reduces φ ts) (imports : ImportTable) :
    readClauses (ts.filterMap φ) imports
      = (readClauses ts imports).map id (List.filterMap φ) := by
  fun_induction readClauses ts imports with
  | case1 ts imports rest hc =>
    have hs : Reduces φ rest := h.of_suffix (suffix_of_collectName hc)
    rw [readClauses_eq, collectName_filterMap h, hc]
    show (imports, skipStatement (rest.filterMap φ)) = _
    rw [skipStatement_filterMap hs]
    rfl
  | case2 ts imports name after hc base hb group =>
    have hafter : Reduces φ after.tail :=
      h.of_suffix ((List.tail_suffix after).trans (suffix_of_collectName hc))
    have hs : Reduces φ group.2 := hafter.of_suffix (readGroup_suffix base after.tail imports)
    -- the brace that opens the group is kept, as all that opens a block
    obtain ⟨hhead, htail⟩ := head?_of_collectName h hc
    rw [readClauses_eq, collectName_filterMap h, hc]
    simp only [Prod.map_apply, id, hhead, htail]
    rw [if_pos hb, readGroup_filterMap base hafter]
    show (group.1, skipStatement (group.2.filterMap φ)) = _
    rw [skipStatement_filterMap hs]
  | case3 ts imports name after hc base hb imports' hr =>
    have hafter : Reduces φ after := h.of_suffix (suffix_of_collectName hc)
    have hs : Reduces φ (readAlias after).2 := hafter.of_suffix (readAlias_suffix after)
    obtain ⟨hhead, -⟩ := head?_of_collectName h hc
    rw [readClauses_eq, collectName_filterMap h, hc]
    simp only [Prod.map_apply, id, hhead]
    rw [if_neg hb, readAlias_filterMap hafter]
    simp only [Prod.map_fst, Prod.map_snd, id, skipTrivia_filterMap_nil hs hr]
    rfl
  | case4 ts imports name after hc base hb imports' t rest hr _ hcomma ih =>
    have hafter : Reduces φ after := h.of_suffix (suffix_of_collectName hc)
    have hs : Reduces φ (readAlias after).2 := hafter.of_suffix (readAlias_suffix after)
    obtain ⟨hhead, -⟩ := head?_of_collectName h hc
    obtain ⟨u, hφ, hrole, heq⟩ := skipTrivia_filterMap_cons hs hr
    have hrest : Reduces φ rest :=
      hs.of_suffix ((List.suffix_cons t rest).trans (hr ▸ skipTrivia_suffix _))
    rw [readClauses_eq, collectName_filterMap h, hc]
    simp only [Prod.map_apply, id, hhead]
    rw [if_neg hb, readAlias_filterMap hafter]
    simp only [Prod.map_fst, Prod.map_snd, id, heq, hrole.isComma]
    rw [if_pos hcomma]
    exact ih hrest
  | case5 ts imports name after hc base hb imports' t rest hr _ hcomma =>
    have hafter : Reduces φ after := h.of_suffix (suffix_of_collectName hc)
    have hs : Reduces φ (readAlias after).2 := hafter.of_suffix (readAlias_suffix after)
    obtain ⟨hhead, -⟩ := head?_of_collectName h hc
    obtain ⟨u, hφ, hrole, heq⟩ := skipTrivia_filterMap_cons hs hr
    have hrest : Reduces φ (t :: rest) := hs.of_suffix (hr ▸ skipTrivia_suffix _)
    rw [readClauses_eq, collectName_filterMap h, hc]
    simp only [Prod.map_apply, id, hhead]
    rw [if_neg hb, readAlias_filterMap hafter]
    simp only [Prod.map_fst, Prod.map_snd, id, heq, hrole.isComma]
    rw [if_neg hcomma, ← List.filterMap_cons_some hφ, skipStatement_filterMap hrest]

theorem readUse_filterMap (h : Reduces φ ts) (imports : ImportTable) :
    readUse (ts.filterMap φ) imports = (readUse ts imports).map id (List.filterMap φ) := by
  rw [readUse, readUse]
  cases hs : skipTrivia ts with
  | nil => rw [skipTrivia_filterMap_nil h hs]; rfl
  | cons t rest =>
    obtain ⟨u, hφ, hr, heq⟩ := skipTrivia_filterMap_cons h hs
    have hrest : Reduces φ (t :: rest) := h.of_suffix (hs ▸ skipTrivia_suffix ts)
    rw [heq]
    dsimp only
    rw [← List.filterMap_cons_some hφ, skipStatement_filterMap hrest,
      readClauses_filterMap hrest, isOtherImport_of_sameRole hr]
    split <;> rfl

end Reduction

end Import

open Import

namespace ImportTable

variable {φ : Token → Option Token} {ts : List Token}

/-- **The imports of a file depend on the roles of its significant tokens alone.** -/
theorem collect_filterMap (h : Reduces φ ts) (depth top : Nat) (imports : ImportTable) :
    collect depth top imports (ts.filterMap φ) = collect depth top imports ts := by
  fun_induction collect depth top imports ts with
  | case1 => rw [List.filterMap_nil, collect]
  | case2 depth top imports t ts ho ih =>
    obtain ⟨u, hφ, hr⟩ := h.opened ho
    rw [List.filterMap_cons_some hφ, collect, hr.opensBlock, if_pos ho]
    exact ih h.tail
  | case3 depth top imports t ts ho hc ih =>
    obtain ⟨u, hφ, hr⟩ := h.kept (isTrivia_of_isSymbol hc)
    rw [List.filterMap_cons_some hφ, collect, hr.opensBlock, hr.closesBlock, if_neg ho, if_pos hc]
    exact ih h.tail
  | case4 depth top imports t ts ho hc hn _ hb ih =>
    obtain ⟨u, hφ, hr⟩ := h.kept (isTrivia_of_isKeyword hn.2)
    rw [List.filterMap_cons_some hφ, collect, hr.opensBlock, hr.closesBlock, hr.isKeyword,
      if_neg ho, if_neg hc, if_pos hn, NamespaceHead.opensBlock_filterMap h.tail, if_pos hb,
      NamespaceHead.read_filterMap h.tail]
    exact ih (h.tail.of_suffix (NamespaceHead.read_suffix ts))
  | case5 depth top imports t ts ho hc hn _ hb ih =>
    obtain ⟨u, hφ, hr⟩ := h.kept (isTrivia_of_isKeyword hn.2)
    rw [List.filterMap_cons_some hφ, collect, hr.opensBlock, hr.closesBlock, hr.isKeyword,
      if_neg ho, if_neg hc, if_pos hn, NamespaceHead.opensBlock_filterMap h.tail, if_neg hb,
      NamespaceHead.read_filterMap h.tail]
    exact ih (h.tail.of_suffix (NamespaceHead.read_suffix ts))
  | case6 depth top imports t ts ho hc hn hu _ ih =>
    obtain ⟨u, hφ, hr⟩ := h.kept (isTrivia_of_isKeyword hu.2)
    rw [List.filterMap_cons_some hφ, collect, hr.opensBlock, hr.closesBlock, hr.isKeyword,
      hr.isKeyword, if_neg ho, if_neg hc, if_neg hn, if_pos hu, readUse_filterMap h.tail]
    exact ih (h.tail.of_suffix (readUse_suffix ts imports))
  | case7 depth top imports t ts ho hc hn hu ih =>
    rcases h.cons_cases with ⟨hφ, -, -⟩ | ⟨u, hφ, hr⟩
    · rw [List.filterMap_cons_none hφ]
      exact ih h.tail
    · rw [List.filterMap_cons_some hφ, collect, hr.opensBlock, hr.closesBlock, hr.isKeyword,
        hr.isKeyword, if_neg ho, if_neg hc, if_neg hn, if_neg hu]
      exact ih h.tail

theorem ofTokens_filterMap (h : Reduces φ ts) : ofTokens (ts.filterMap φ) = ofTokens ts :=
  collect_filterMap h 0 0 []

theorem ofTokens_significant (h : OpensOutsideNames ts) :
    ofTokens (significant ts) = ofTokens ts := by
  rw [significant_eq_filterMap, ofTokens_filterMap (reduces_guard h)]

/-- Tokens with the same roles import the same. -/
theorem ofTokens_congr {us : List Token} (h : List.Forall₂ SameRole ts us) :
    ofTokens us = ofTokens ts := by
  rw [← ofTokens_filterMap (reduces_role us), filterMap_role_eq h,
    ofTokens_filterMap (reduces_role ts)]

end ImportTable
end ClassLineage
