import ClassLineage.Import
import ClassLineage.Proofs.Token.Case

/-!
# Imports in another case

The readers of imports take the same decisions on tokens and on the tokens whose names are folded.
Each alias is imported folded, then, for the same name, folded; but aliases that differ in their
case alone become one, and the later of them counts.  So the table that is read from the folded
tokens agrees with the one that is read from the tokens on what is exact for that.

## Main definitions

* `Import.ReadsFolded` — a reader does on folded tokens what one does on the tokens.

## Main results

* `Import.readGroup_foldCase`, `Import.readClauses_foldCase` — groups and statements.
* `ImportTable.ofTokens_foldCase` — **the table of the folded tokens agrees with that of the
  tokens on what is exact.**
-/

namespace ClassLineage

open Token

namespace Import

/-- What `read'` reads from folded tokens, given any table that agrees with `imports`, is `read`:
a table that agrees with the one of `read`, and the tokens left, folded. -/
def ReadsFolded (imports : ImportTable) (read : ImportTable × List Token)
    (read' : ImportTable → ImportTable × List Token) : Prop :=
  ∀ imports', imports.Folds imports' →
    read.1.Folds (read' imports').1 ∧ (read' imports').2 = read.2.map foldCase

variable {imports imports' : ImportTable}

theorem isOtherImport_foldCase (t : Token) : isOtherImport t.foldCase = isOtherImport t := rfl

/-- An alias that is given, and is not empty, is the one that is set. -/
theorem add_given {key written : String} (hw : written ≠ "") (hkey : key ≠ "") (full : String)
    (imports : ImportTable) : add (some key) written full imports = imports.put key full := by
  rw [add.eq_def, if_neg hw]
  split
  · next hn => exact absurd hn (Option.some_ne_none key)
  · next he => exact absurd (Option.some.inj he) hkey
  · next he => rw [Option.some.inj he]

theorem folds_add (h : imports.Folds imports') (given : Option String) (written full : String) :
    (add given written full imports).Folds
      (add (given.map Text.foldCase) (Text.foldCase written) (Text.foldCase full) imports') := by
  by_cases hw : written = ""
  · rw [add.eq_def, add.eq_def, if_pos hw, if_pos (Text.foldCase_eq_empty_iff.mpr hw)]
    exact h
  have hw' := mt Text.foldCase_eq_empty_iff.mp hw
  have hbase := h.put (Name.basename written) full
  rw [← Name.basename_foldCase] at hbase
  cases given with
  | none => rwa [add, add.eq_def, if_neg hw, if_neg hw']
  | some key =>
    by_cases hkey : key = ""
    · subst hkey
      rwa [add, add.eq_def, if_neg hw, if_neg hw']
    · rw [add_given hw hkey, Option.map_some,
        add_given hw' (mt Text.foldCase_eq_empty_iff.mp hkey)]
      exact h.put key full

theorem readAlias_foldCase (ts : List Token) :
    readAlias (ts.map foldCase)
      = ((readAlias ts).1.map Text.foldCase, (readAlias ts).2.map foldCase) := by
  rw [readAlias, readAlias, skipTrivia_foldCase]
  cases skipTrivia ts with
  | nil => rfl
  | cons t rest =>
    rw [List.map_cons]
    dsimp only
    rw [isKeyword_foldCase, skipTrivia_foldCase]
    by_cases ha : t.isKeyword .asWord = true
    · rw [if_pos ha, if_pos ha]
      cases skipTrivia rest with
      | nil => rfl
      | cons n more =>
        rw [List.map_cons]
        dsimp only
        rw [kind_foldCase]
        by_cases hn : (n.kind == .name) = true
        · rw [if_pos hn, if_pos hn, text_foldCase_of_name (beq_iff_eq.mp hn)]
          rfl
        · rw [if_neg hn, if_neg hn]
          rfl
    · rw [if_neg ha, if_neg ha]
      rfl

theorem skipMember_foldCase (ts : List Token) :
    skipMember (ts.map foldCase) = (skipMember ts).map foldCase :=
  Text.dropWhile_map_of_apply
    (fun t => by rw [isComma_foldCase, closesBlock_foldCase, isSemicolon_foldCase]) ts

/-- The full name of a member below a base. -/
theorem member_foldCase (base member : String) :
    (if Text.foldCase base = "" then Text.foldCase member
      else Text.foldCase base ++ Name.separator ++ Text.foldCase member)
      = Text.foldCase (if base = "" then member else base ++ Name.separator ++ member) := by
  by_cases h : base = ""
  · rw [if_pos h, if_pos (Text.foldCase_eq_empty_iff.mpr h)]
  · rw [if_neg h, if_neg (mt Text.foldCase_eq_empty_iff.mp h), Text.foldCase_append,
      Text.foldCase_append, Name.foldCase_separator]

/-- **A group imports the same, folded.** -/
theorem readGroup_foldCase (base : String) (ts : List Token) (imports : ImportTable) :
    ReadsFolded imports (readGroup base ts imports)
      (readGroup (Text.foldCase base) (ts.map foldCase)) := by
  have hskip : ∀ {ts : List Token} {t : Token} {rest : List Token}, skipTrivia ts = t :: rest →
      skipTrivia (ts.map foldCase) = t.foldCase :: rest.map foldCase := by
    intro ts t rest hs
    rw [skipTrivia_foldCase, hs, List.map_cons]
  fun_induction readGroup base ts imports with
  | case1 ts imports hs =>
    intro imports' h
    rw [readGroup_of_nil _ _ (by rw [skipTrivia_foldCase, hs, List.map_nil])]
    exact ⟨h, rfl⟩
  | case2 ts imports t rest hs _ hc =>
    intro imports' h
    rw [readGroup_of_cons _ _ (hskip hs), closesBlock_foldCase, if_pos hc]
    exact ⟨h, rfl⟩
  | case3 ts imports t rest hs _ hc hcomma ih =>
    intro imports' h
    rw [readGroup_of_cons _ _ (hskip hs), closesBlock_foldCase, if_neg hc, isComma_foldCase,
      if_pos hcomma]
    exact ih _ h
  | case4 ts imports t rest hs _ hc hcomma ho _ ih =>
    intro imports' h
    rw [readGroup_of_cons _ _ (hskip hs), closesBlock_foldCase, if_neg hc, isComma_foldCase,
      if_neg hcomma, isOtherImport_foldCase, if_pos ho, skipMember_foldCase]
    exact ih _ h
  | case5 ts imports t rest hs _ hc hcomma ho after hn hsemi =>
    intro imports' h
    rw [readGroup_of_cons _ _ (hskip hs), closesBlock_foldCase, if_neg hc, isComma_foldCase,
      if_neg hcomma, isOtherImport_foldCase, if_neg ho, ← List.map_cons, collectName_foldCase, hn]
    dsimp only [Option.map_none]
    rw [isSemicolon_foldCase, if_pos hsemi]
    exact ⟨h, rfl⟩
  | case6 ts imports t rest hs _ hc hcomma ho after hn hsemi ih =>
    intro imports' h
    rw [readGroup_of_cons _ _ (hskip hs), closesBlock_foldCase, if_neg hc, isComma_foldCase,
      if_neg hcomma, isOtherImport_foldCase, if_neg ho, ← List.map_cons, collectName_foldCase, hn]
    dsimp only [Option.map_none]
    rw [isSemicolon_foldCase, if_neg hsemi]
    exact ih _ h
  | case7 ts imports t rest hs _ hc hcomma ho name after hn _ member full ih =>
    intro imports' h
    rw [readGroup_of_cons _ _ (hskip hs), closesBlock_foldCase, if_neg hc, isComma_foldCase,
      if_neg hcomma, isOtherImport_foldCase, if_neg ho, ← List.map_cons, collectName_foldCase, hn]
    dsimp only [Option.map_some]
    rw [readAlias_foldCase, Name.trimSeparators_foldCase, member_foldCase]
    exact ih _ (folds_add h _ _ _)

theorem opensBlock_head?_foldCase (ts : List Token) :
    (ts.map foldCase).head?.any Token.opensBlock = ts.head?.any Token.opensBlock := by
  cases ts with
  | nil => rfl
  | cons t ts => exact opensBlock_foldCase t

/-- What follows the first name of folded clauses, where no group does. -/
theorem readClauses_foldCase_of_name {ts after left : List Token} {name : String}
    (hc : collectName ts = (some name, after)) (ho : ¬ after.head?.any Token.opensBlock = true)
    (hleft : skipTrivia (readAlias after).2 = left) {imports added : ImportTable}
    (hadded : add ((readAlias after).1.map Text.foldCase)
      (Text.foldCase (Name.trimSeparators name)) (Text.foldCase (Name.trimSeparators name)) imports
      = added) :
    readClauses (ts.map foldCase) imports =
      match left.map foldCase with
      | [] => (added, [])
      | t :: rest =>
        if t.isComma then readClauses rest added else (added, skipStatement (t :: rest)) := by
  rw [readClauses_eq, collectName_foldCase, hc]
  dsimp only [Option.map_some]
  rw [opensBlock_head?_foldCase, if_neg ho, readAlias_foldCase, skipTrivia_foldCase, hleft,
    Name.trimSeparators_foldCase]
  subst hadded
  cases left with
  | nil => rfl
  | cons t rest => rfl

/-- **The clauses of a statement import the same, folded.** -/
theorem readClauses_foldCase (ts : List Token) (imports : ImportTable) :
    ReadsFolded imports (readClauses ts imports) (readClauses (ts.map foldCase)) := by
  fun_induction readClauses ts imports with
  | case1 ts imports rest hc =>
    intro imports' h
    rw [readClauses_eq (ts.map foldCase), collectName_foldCase, hc]
    exact ⟨h, skipStatement_foldCase rest⟩
  | case2 ts imports name after hc base ho group =>
    intro imports' h
    obtain ⟨hfolds, hrest⟩ := readGroup_foldCase base after.tail imports _ h
    rw [readClauses_eq (ts.map foldCase), collectName_foldCase, hc]
    dsimp only [Option.map_some]
    rw [opensBlock_head?_foldCase, if_pos ho, Name.trimSeparators_foldCase, ← List.map_tail]
    exact ⟨hfolds, by rw [hrest, skipStatement_foldCase]⟩
  | case3 ts imports name after hc base ho added hr =>
    intro imports' h
    have hadded := folds_add h (readAlias after).1 base base
    rw [readClauses_foldCase_of_name hc ho hr rfl, List.map_nil]
    dsimp only
    exact ⟨hadded, rfl⟩
  | case4 ts imports name after hc base ho added t rest hr _ hcomma ih =>
    intro imports' h
    have hadded := folds_add h (readAlias after).1 base base
    rw [readClauses_foldCase_of_name hc ho hr rfl, List.map_cons]
    dsimp only
    rw [isComma_foldCase, if_pos hcomma]
    exact ih _ hadded
  | case5 ts imports name after hc base ho added t rest hr _ hcomma =>
    intro imports' h
    have hadded := folds_add h (readAlias after).1 base base
    rw [readClauses_foldCase_of_name hc ho hr rfl, List.map_cons]
    dsimp only
    rw [isComma_foldCase, if_neg hcomma, ← List.map_cons, skipStatement_foldCase]
    dsimp only
    exact ⟨hadded, rfl⟩

/-- **A statement imports the same, folded.** -/
theorem readUse_foldCase (ts : List Token) (imports : ImportTable) :
    ReadsFolded imports (readUse ts imports) (readUse (ts.map foldCase)) := by
  intro imports' h
  rw [readUse, readUse, skipTrivia_foldCase]
  cases skipTrivia ts with
  | nil => exact ⟨h, rfl⟩
  | cons t rest =>
    rw [List.map_cons]
    dsimp only
    rw [isOtherImport_foldCase]
    split
    · exact ⟨h, skipStatement_foldCase (t :: rest)⟩
    · exact readClauses_foldCase (t :: rest) imports _ h

end Import

open Import

namespace ImportTable

/-- **The rest of a file imports the same, folded.** -/
theorem collect_foldCase {imports imports' : ImportTable} (depth top : Nat) (ts : List Token)
    (h : imports.Folds imports') :
    (collect depth top imports ts).Folds (collect depth top imports' (ts.map foldCase)) := by
  fun_induction collect depth top imports ts generalizing imports' with
  | case1 =>
    rw [List.map_nil, collect]
    exact h
  | case2 depth top imports t ts ho ih =>
    rw [List.map_cons, collect, opensBlock_foldCase, if_pos ho]
    exact ih h
  | case3 depth top imports t ts ho hc ih =>
    rw [List.map_cons, collect, opensBlock_foldCase, if_neg ho, closesBlock_foldCase, if_pos hc]
    exact ih h
  | case4 depth top imports t ts ho hc hn _ hb ih =>
    rw [List.map_cons, collect, opensBlock_foldCase, if_neg ho, closesBlock_foldCase, if_neg hc,
      isKeyword_foldCase, if_pos hn, NamespaceHead.read_foldCase, NamespaceHead.opensBlock_foldCase,
      if_pos hb]
    exact ih h
  | case5 depth top imports t ts ho hc hn _ hb ih =>
    rw [List.map_cons, collect, opensBlock_foldCase, if_neg ho, closesBlock_foldCase, if_neg hc,
      isKeyword_foldCase, if_pos hn, NamespaceHead.read_foldCase, NamespaceHead.opensBlock_foldCase,
      if_neg hb]
    exact ih h
  | case6 depth top imports t ts ho hc hn hu _ ih =>
    obtain ⟨hfolds, hrest⟩ := readUse_foldCase ts imports _ h
    rw [List.map_cons, collect, opensBlock_foldCase, if_neg ho, closesBlock_foldCase, if_neg hc,
      isKeyword_foldCase, if_neg hn, isKeyword_foldCase, if_pos hu, hrest]
    exact ih hfolds
  | case7 depth top imports t ts ho hc hn hu ih =>
    rw [List.map_cons, collect, opensBlock_foldCase, if_neg ho, closesBlock_foldCase, if_neg hc,
      isKeyword_foldCase, if_neg hn, isKeyword_foldCase, if_neg hu]
    exact ih h

/-- **The table of the folded tokens agrees with that of the tokens on what is exact.** -/
theorem ofTokens_foldCase (ts : List Token) :
    (ofTokens ts).Folds (ofTokens (ts.map foldCase)) := collect_foldCase 0 0 ts folds_nil

end ImportTable
end ClassLineage
