import ClassLineage.Proofs.Import.Bindings
import ClassLineage.Proofs.Import.Grammar
import ClassLineage.Proofs.Token.Boundary

/-!
# Imports up to the end of a statement

The readers of imports stop where a statement ends, however malformed the tokens before it are:
on tokens that end with a semicolon each of them gives the same whatever follows, and leaves
what follows as it is.  They skip no block, so that a brace which closes a block that they did
not open is left.  Where the braces of the tokens match, all that is open is closed in the end,
and the two numbers of open blocks have come down to zero: they are never larger than the number
of blocks that are open.

## Main results

* `EndsStatement.readGroup_append`, `EndsStatement.readUse_append` — groups and statements stop
  where a statement ends.
* `KeepsOpen.readUse` — what was open before a statement is open after it.
* `ImportTable.collect_append` — **what follows is read as if nothing had been read before.**
* `ImportTable.ofTokens_append` — **the imports of a file are those of its two parts.**
-/

namespace ClassLineage

open Token Import

/-! ### Where the readers stop -/

namespace Token
namespace EndsStatement

variable {ts : List Token}

theorem readAlias_append (h : EndsStatement ts) (us : List Token) :
    readAlias (ts ++ us) = ((readAlias ts).1, (readAlias ts).2 ++ us) ∧
      EndsStatement (readAlias ts).2 := by
  obtain ⟨t, rest, hs, hleft⟩ := h.exists_skipTrivia
  rw [readAlias, readAlias, h.skipTrivia_append, hs, List.cons_append]
  dsimp only
  by_cases ha : t.isKeyword .asWord = true
  · have hrest := hleft.tail_of_isKeyword ha
    obtain ⟨n, more, hs', hleft'⟩ := hrest.exists_skipTrivia
    rw [if_pos ha, if_pos ha, hrest.skipTrivia_append, hs', List.cons_append]
    dsimp only
    by_cases hn : (n.kind == .name) = true
    · have hpart : n.isNamePart = true := by rw [isNamePart, hn, Bool.true_or]
      rw [if_pos hn, if_pos hn]
      exact ⟨rfl, hleft'.tail_of_isNamePart hpart⟩
    · rw [if_neg hn, if_neg hn, List.cons_append]
      exact ⟨rfl, hleft'⟩
  · rw [if_neg ha, if_neg ha, List.cons_append]
    exact ⟨rfl, hleft⟩

/-- A member of a group ends at the latest with the statement. -/
theorem endsMember {t : Token} (h : t.isSemicolon = true) :
    (!(t.isComma || t.closesBlock || t.isSemicolon)) = false := by
  rw [h, Bool.or_true]
  rfl

theorem skipMember_append (h : EndsStatement ts) (us : List Token) :
    skipMember (ts ++ us) = skipMember ts ++ us :=
  h.dropWhile_append (fun _ => endsMember) us

theorem skipMember (h : EndsStatement ts) : EndsStatement (skipMember ts) :=
  h.dropWhile fun _ => endsMember

/-- **A group stops where a statement ends,** before its semicolon. -/
theorem readGroup_append (h : EndsStatement ts) (base : String) (imports : ImportTable)
    (us : List Token) :
    readGroup base (ts ++ us) imports
        = ((readGroup base ts imports).1, (readGroup base ts imports).2 ++ us) ∧
      EndsStatement (readGroup base ts imports).2 := by
  -- the cases are those of the reader: the end, a brace, a comma, a function or constant, what
  -- is no name, and a name with its alias
  fun_induction readGroup base ts imports with
  | case1 ts imports hs =>
    obtain ⟨t, rest, hs', -⟩ := h.exists_skipTrivia
    exact absurd (hs.symm.trans hs') (List.cons_ne_nil t rest).symm
  | case2 ts imports t rest hs _ hc =>
    obtain ⟨happend, hleft⟩ := h.of_skipTrivia hs us
    rw [readGroup_of_cons base imports happend, if_pos hc]
    refine ⟨rfl, hleft.tail fun hsemi => ?_⟩
    rw [closesBlock_of_isSemicolon hsemi] at hc
    exact Bool.false_ne_true hc
  | case3 ts imports t rest hs _ hc hcomma ih =>
    obtain ⟨happend, hleft⟩ := h.of_skipTrivia hs us
    rw [readGroup_of_cons base imports happend, if_neg hc, if_pos hcomma]
    exact ih (hleft.tail (Bool.eq_false_iff.mp (isSemicolon_of_isComma hcomma)))
  | case4 ts imports t rest hs _ hc hcomma ho _ ih =>
    obtain ⟨happend, hleft⟩ := h.of_skipTrivia hs us
    have hrest := hleft.tail (Bool.eq_false_iff.mp (isSymbol_of_isOtherImport ho _))
    rw [readGroup_of_cons base imports happend, if_neg hc, if_neg hcomma, if_pos ho,
      hrest.skipMember_append]
    exact ih hrest.skipMember
  | case5 ts imports t rest hs _ hc hcomma ho after hn hsemi =>
    obtain ⟨happend, hleft⟩ := h.of_skipTrivia hs us
    obtain ⟨hn', -⟩ := hleft.of_collectName hn us
    rw [List.cons_append] at hn'
    rw [readGroup_of_cons base imports happend, if_neg hc, if_neg hcomma, if_neg ho, hn']
    dsimp only
    rw [if_pos hsemi]
    exact ⟨rfl, hleft⟩
  | case6 ts imports t rest hs _ hc hcomma ho after hn hsemi ih =>
    obtain ⟨happend, hleft⟩ := h.of_skipTrivia hs us
    obtain ⟨hn', -⟩ := hleft.of_collectName hn us
    rw [List.cons_append] at hn'
    rw [readGroup_of_cons base imports happend, if_neg hc, if_neg hcomma, if_neg ho, hn']
    dsimp only
    rw [if_neg hsemi]
    exact ih (hleft.tail hsemi)
  | case7 ts imports t rest hs _ hc hcomma ho name after hn _ member full ih =>
    obtain ⟨happend, hleft⟩ := h.of_skipTrivia hs us
    obtain ⟨hn', hafter⟩ := hleft.of_collectName hn us
    rw [List.cons_append] at hn'
    obtain ⟨halias, hrest⟩ := hafter.readAlias_append us
    rw [readGroup_of_cons base imports happend, if_neg hc, if_neg hcomma, if_neg ho, hn']
    dsimp only
    rw [halias]
    exact ih hrest

/-- The names of a statement stop where a statement ends. -/
theorem readClauses_append (h : EndsStatement ts) (imports : ImportTable) (us : List Token) :
    readClauses (ts ++ us) imports
      = ((readClauses ts imports).1, (readClauses ts imports).2 ++ us) := by
  have hhead : ∀ {after : List Token}, EndsStatement after →
      (after ++ us).head?.any Token.opensBlock = after.head?.any Token.opensBlock := by
    intro after hafter
    rw [List.head?_append_of_ne_nil _ hafter.ne_nil]
  fun_induction readClauses ts imports with
  | case1 ts imports rest hn =>
    obtain ⟨hn', hrest⟩ := h.of_collectName hn us
    rw [readClauses_eq, hn']
    dsimp only
    rw [hrest.skipStatement_append]
  | case2 ts imports name after hn base ho group =>
    obtain ⟨hn', hafter⟩ := h.of_collectName hn us
    have htail : (after ++ us).tail = after.tail ++ us := List.tail_append_of_ne_nil hafter.ne_nil
    -- a brace opens the group, so that more tokens follow
    have hbody : EndsStatement after.tail := by
      obtain ⟨o, body, rfl⟩ := List.exists_cons_of_ne_nil hafter.ne_nil
      refine hafter.tail fun hsemi => ?_
      rw [List.head?_cons, Option.any_some, opensBlock_of_isSemicolon hsemi] at ho
      exact Bool.false_ne_true ho
    obtain ⟨hgroup, hrest⟩ := hbody.readGroup_append base imports us
    rw [readClauses_eq, hn']
    dsimp only
    rw [hhead hafter, if_pos ho, htail, hgroup]
    dsimp only
    rw [hrest.skipStatement_append]
  | case3 ts imports name after hn base ho imports' hr =>
    obtain ⟨-, hafter⟩ := h.of_collectName hn us
    obtain ⟨-, hrest⟩ := hafter.readAlias_append us
    obtain ⟨t, rest, hs, -⟩ := hrest.exists_skipTrivia
    exact absurd (hr.symm.trans hs) (List.cons_ne_nil t rest).symm
  | case4 ts imports name after hn base ho imports' t rest hr _ hcomma ih =>
    obtain ⟨hn', hafter⟩ := h.of_collectName hn us
    obtain ⟨halias, hrest⟩ := hafter.readAlias_append us
    obtain ⟨happend, hleft⟩ := hrest.of_skipTrivia hr us
    rw [readClauses_eq, hn']
    dsimp only
    rw [hhead hafter, if_neg ho, halias]
    simp only [happend]
    rw [if_pos hcomma]
    exact ih (hleft.tail (Bool.eq_false_iff.mp (isSemicolon_of_isComma hcomma)))
  | case5 ts imports name after hn base ho imports' t rest hr _ hcomma =>
    obtain ⟨hn', hafter⟩ := h.of_collectName hn us
    obtain ⟨halias, hrest⟩ := hafter.readAlias_append us
    obtain ⟨happend, hleft⟩ := hrest.of_skipTrivia hr us
    rw [readClauses_eq, hn']
    dsimp only
    rw [hhead hafter, if_neg ho, halias]
    simp only [happend]
    rw [if_neg hcomma, ← List.cons_append, hleft.skipStatement_append]

/-- **A statement stops where a statement ends.** -/
theorem readUse_append (h : EndsStatement ts) (imports : ImportTable) (us : List Token) :
    readUse (ts ++ us) imports = ((readUse ts imports).1, (readUse ts imports).2 ++ us) := by
  obtain ⟨t, rest, hs, hleft⟩ := h.exists_skipTrivia
  rw [readUse, readUse, h.skipTrivia_append, hs, List.cons_append]
  dsimp only
  by_cases ho : isOtherImport t = true
  · rw [if_pos ho, if_pos ho, ← List.cons_append, hleft.skipStatement_append]
  · rw [if_neg ho, if_neg ho, ← List.cons_append, hleft.readClauses_append]

end EndsStatement

/-! ### What the readers leave open -/

namespace LeavesOpen

theorem readAlias (ts : List Token) : LeavesOpen ts (readAlias ts).2 := by
  rw [Import.readAlias]
  have hskip := skipTrivia ts
  cases hs : Token.skipTrivia ts with
  | nil => rwa [hs] at hskip
  | cons t rest =>
    rw [hs] at hskip
    dsimp only
    by_cases ha : t.isKeyword .asWord = true
    · rw [if_pos ha]
      have hrest := hskip.trans (cons (isSymbol_of_isKeyword ha _) rest)
      have hskip' := skipTrivia rest
      cases hs' : Token.skipTrivia rest with
      | nil =>
        rw [hs'] at hskip'
        exact hrest.trans hskip'
      | cons n more =>
        rw [hs'] at hskip'
        dsimp only
        by_cases hn : (n.kind == .name) = true
        · have hpart : n.isNamePart = true := by rw [isNamePart, hn, Bool.true_or]
          rw [if_pos hn]
          exact (hrest.trans hskip').trans (cons (isSymbol_of_isNamePart hpart _) more)
        · rw [if_neg hn]
          exact hrest.trans hskip'
    · rw [if_neg ha]
      exact hskip

/-- A name with its alias and the trivia behind them. -/
theorem clause {ts after rest : List Token} {name : Option String}
    (hn : Token.collectName ts = (name, after))
    (hr : Token.skipTrivia (Import.readAlias after).2 = rest) : LeavesOpen ts rest :=
  hr ▸ ((of_collectName hn).trans (readAlias after)).trans (skipTrivia _)

theorem skipMember (ts : List Token) : LeavesOpen ts (skipMember ts) := by
  refine dropWhile (fun t ht => ?_) ts
  rw [Bool.not_eq_true', Bool.or_eq_false_iff, Bool.or_eq_false_iff] at ht
  exact ht.1.2

/-- **A group takes one brace that closes a block at most,** the last of its tokens. -/
theorem readGroup (base : String) (ts : List Token) (imports : ImportTable) :
    LeavesOpen ts (readGroup base ts imports).2 ∨
      ∃ c, c.closesBlock = true ∧ LeavesOpen ts (c :: (Import.readGroup base ts imports).2) := by
  have hstep : ∀ {ts us rest : List Token}, LeavesOpen ts us →
      (LeavesOpen us rest ∨ ∃ c, c.closesBlock = true ∧ LeavesOpen us (c :: rest)) →
        (LeavesOpen ts rest ∨ ∃ c, c.closesBlock = true ∧ LeavesOpen ts (c :: rest)) := by
    rintro ts us rest h (h' | ⟨c, hc, h'⟩)
    · exact Or.inl (h.trans h')
    · exact Or.inr ⟨c, hc, h.trans h'⟩
  have hskip : ∀ {ts rest : List Token} {t : Token}, Token.skipTrivia ts = t :: rest →
      LeavesOpen ts (t :: rest) := fun hs => hs ▸ skipTrivia _
  have hdrop : ∀ {ts rest : List Token} {t : Token}, Token.skipTrivia ts = t :: rest →
      ¬t.closesBlock = true → LeavesOpen ts rest := fun hs hc =>
    (hskip hs).trans (cons (Bool.not_eq_true _ ▸ hc) _)
  fun_induction Import.readGroup base ts imports with
  | case1 ts imports hs => exact Or.inl (hs ▸ skipTrivia ts)
  | case2 ts imports t rest hs _ hc => exact Or.inr ⟨t, hc, hskip hs⟩
  | case3 ts imports t rest hs _ hc hcomma ih => exact hstep (hdrop hs hc) ih
  | case4 ts imports t rest hs _ hc hcomma ho _ ih =>
    exact hstep ((hdrop hs hc).trans (skipMember rest)) ih
  | case5 ts imports t rest hs => exact Or.inl (hskip hs)
  | case6 ts imports t rest hs _ hc hcomma ho after hn hsemi ih => exact hstep (hdrop hs hc) ih
  | case7 ts imports t rest hs _ hc hcomma ho name after hn _ member full ih =>
    exact hstep (((hskip hs).trans (of_collectName hn)).trans (readAlias after)) ih

end LeavesOpen

namespace KeepsOpen

/-- The brace that a group takes closes the block that the group has opened. -/
theorem readGroup {o : Token} (ho : o.opensBlock = true) (base : String) (ts : List Token)
    (imports : ImportTable) : KeepsOpen (o :: ts) (readGroup base ts imports).2 := by
  rcases LeavesOpen.readGroup base ts imports with hopen | ⟨c, hc, hopen⟩
  · exact ((LeavesOpen.cons (closesBlock_of_opensBlock ho) ts).trans hopen).keepsOpen
  · exact hopen.keepsOpen_block ho hc

theorem readClauses (ts : List Token) (imports : ImportTable) :
    KeepsOpen ts (readClauses ts imports).2 := by
  fun_induction Import.readClauses ts imports with
  | case1 ts imports rest hn =>
    exact ((LeavesOpen.of_collectName hn).trans (LeavesOpen.skipStatement rest)).keepsOpen
  | case2 ts imports name after hn base ho group =>
    cases after with
    | nil => exact absurd ho Bool.false_ne_true
    | cons o body =>
      have hgroup : KeepsOpen (o :: body) group.2 := readGroup ho base body imports
      exact (LeavesOpen.of_collectName hn).keepsOpen.trans
        (hgroup.trans (LeavesOpen.skipStatement _).keepsOpen)
  | case3 ts imports name after hn base ho imports' hr =>
    exact (LeavesOpen.clause hn hr).keepsOpen
  | case4 ts imports name after hn base ho imports' t rest hr _ hcomma ih =>
    have hleft := (LeavesOpen.clause hn hr).trans
      (LeavesOpen.cons (closesBlock_of_isComma hcomma) rest)
    exact hleft.keepsOpen.trans ih
  | case5 ts imports name after hn base ho imports' t rest hr _ hcomma =>
    exact ((LeavesOpen.clause hn hr).trans (LeavesOpen.skipStatement _)).keepsOpen

/-- **What was open before a statement is open after it.** -/
theorem readUse (ts : List Token) (imports : ImportTable) :
    KeepsOpen ts (readUse ts imports).2 := by
  have hskip := LeavesOpen.skipTrivia ts
  rw [Import.readUse]
  cases hs : skipTrivia ts with
  | nil =>
    rw [hs] at hskip
    exact hskip.keepsOpen
  | cons t rest =>
    rw [hs] at hskip
    dsimp only
    by_cases ho : isOtherImport t = true
    · rw [if_pos ho]
      exact (hskip.trans (LeavesOpen.skipStatement _)).keepsOpen
    · rw [if_neg ho]
      exact hskip.keepsOpen.trans (readClauses _ imports)

end KeepsOpen
end Token

/-! ### Files -/

namespace ImportTable

/-- **What follows is read as if nothing had been read before,** where the braces match and a
statement ends.  No more blocks are counted than are open, so that none is in the end. -/
theorem collect_append {ts : List Token} (h : ts = [] ∨ EndsStatement ts) {depth top opened : Nat}
    (hb : BracesMatch opened ts) (htop : top ≤ depth) (hdepth : depth ≤ opened)
    (imports : ImportTable) (us : List Token) :
    collect depth top imports (ts ++ us) = collect 0 0 (collect depth top imports ts) us := by
  fun_induction collect depth top imports ts generalizing opened with
  | case1 depth top imports =>
    have hopened := hb.eq_zero
    obtain rfl : depth = 0 := by omega
    obtain rfl : top = 0 := by omega
    rfl
  | case2 depth top imports t ts ho ih =>
    have hends := h.resolve_left (List.cons_ne_nil t ts)
    rw [List.cons_append, collect, if_pos ho]
    exact ih (hends.suffix_cases (List.suffix_cons t ts)) (hb.tail_of_opensBlock ho) (by omega)
      (by omega)
  | case3 depth top imports t ts ho hc ih =>
    have hends := h.resolve_left (List.cons_ne_nil t ts)
    obtain ⟨-, htail⟩ := hb.tail_of_closesBlock hc
    rw [List.cons_append, collect, if_neg ho, if_pos hc]
    exact ih (hends.suffix_cases (List.suffix_cons t ts)) htail (Nat.min_le_right _ _) (by omega)
  | case4 depth top imports t ts ho hc hn _ hopens ih =>
    have hends := (h.resolve_left (List.cons_ne_nil t ts)).tail_of_isKeyword hn.2
    rw [Bool.not_eq_true] at ho hc
    obtain ⟨deeper, hdeeper, hleft⟩ := (hb.tail_of_plain ho hc).namespaceHead hopens
    rw [List.cons_append, collect, ho, hc, if_neg Bool.false_ne_true, if_neg Bool.false_ne_true,
      if_pos hn, hends.opensBlock_append, if_pos hopens, hends.read_append]
    exact ih (hends.suffix_cases (NamespaceHead.read_suffix ts)) hleft (Nat.le_refl 1) (by omega)
  | case5 depth top imports t ts ho hc hn _ hopens ih =>
    have hends := (h.resolve_left (List.cons_ne_nil t ts)).tail_of_isKeyword hn.2
    rw [Bool.not_eq_true] at ho hc
    obtain ⟨deeper, hdeeper, hleft⟩ :=
      (LeavesOpen.namespaceHead ts).keepsOpen _ (hb.tail_of_plain ho hc)
    rw [List.cons_append, collect, ho, hc, if_neg Bool.false_ne_true, if_neg Bool.false_ne_true,
      if_pos hn, hends.opensBlock_append, if_neg hopens, hends.read_append]
    exact ih (hends.suffix_cases (NamespaceHead.read_suffix ts)) hleft htop (by omega)
  | case6 depth top imports t ts ho hc hn hu _ ih =>
    have hends := (h.resolve_left (List.cons_ne_nil t ts)).tail_of_isKeyword hu.2
    rw [Bool.not_eq_true] at ho hc
    obtain ⟨deeper, hdeeper, hleft⟩ := KeepsOpen.readUse ts imports _ (hb.tail_of_plain ho hc)
    rw [List.cons_append, collect, ho, hc, if_neg Bool.false_ne_true, if_neg Bool.false_ne_true,
      if_neg hn, if_pos hu, hends.readUse_append]
    exact ih (hends.suffix_cases (readUse_suffix ts imports)) hleft htop (by omega)
  | case7 depth top imports t ts ho hc hn hu ih =>
    have hends := h.resolve_left (List.cons_ne_nil t ts)
    rw [Bool.not_eq_true] at ho hc
    rw [List.cons_append, collect, ho, hc, if_neg Bool.false_ne_true, if_neg Bool.false_ne_true,
      if_neg hn, if_neg hu]
    exact ih (hends.suffix_cases (List.suffix_cons t ts)) (hb.tail_of_plain ho hc) htop hdepth

/-- **The imports of a file are those of its two parts,** those of the second replacing those of
the first, where the first ends with a statement and its braces match. -/
theorem ofTokens_append {ts : List Token} (h : EndsStatement ts) (hb : BracesMatch 0 ts)
    (us : List Token) : ofTokens (ts ++ us) = (ofTokens us).putAll (ofTokens ts) := by
  rw [ofTokens, collect_append (Or.inr h) hb (Nat.le_refl 0) (Nat.le_refl 0), collect_eq_putAll]
  rfl

end ImportTable
end ClassLineage
