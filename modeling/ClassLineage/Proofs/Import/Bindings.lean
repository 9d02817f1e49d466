import ClassLineage.Import
import ClassLineage.Proofs.Entries
import ClassLineage.Proofs.Name

/-!
# What the reader of imports adds

While imports are read, what has been imported so far is never looked at: each reader sets
the same bindings whatever table it is given, and leaves the same tokens.  And each name that
is bound is a full one, since separators are trimmed from the names that are read, and nothing
is bound where none is left.

## Main definitions

* `Import.BindsTight` — a reader sets bindings of its own, each to a tight name.

## Main results

* `Import.bindsTight_readGroup`, `Import.bindsTight_readUse` — groups and statements.
* `ImportTable.collect_eq_putAll` — **what is read is added to what has been imported.**
* `ImportTable.isTight_of_mem_ofTokens` — **every import stands for a tight name.**
-/

namespace ClassLineage

open Token

namespace Import

/-! ### Bindings -/

/-- Each of the bindings is to a tight name. -/
def AllTight (bindings : Entries String) : Prop := ∀ e ∈ bindings, Name.IsTight e.2

/-- The reader sets bindings of its own, each to a tight name, whatever imports it is given,
and leaves the same tokens. -/
def BindsTight (read : ImportTable → ImportTable × List Token) : Prop :=
  ∃ bindings rest, AllTight bindings ∧ ∀ imports, read imports = (bindings.putAll imports, rest)

theorem allTight_nil : AllTight [] := fun _ he => absurd he List.not_mem_nil

theorem AllTight.append {bindings more : Entries String} (h : AllTight bindings)
    (hmore : AllTight more) : AllTight (bindings ++ more) := by
  intro e he
  rcases List.mem_append.mp he with he | he
  · exact h e he
  · exact hmore e he

section Readers

variable {read other : ImportTable → ImportTable × List Token}

/-- A reader that binds nothing. -/
theorem bindsTight_id (rest : List Token) : BindsTight fun imports => (imports, rest) :=
  ⟨[], rest, allTight_nil, fun _ => rfl⟩

theorem BindsTight.congr (h : BindsTight read) (heq : ∀ imports, other imports = read imports) :
    BindsTight other := by
  rw [funext heq]
  exact h

/-- Bindings may be set before a reader is run. -/
theorem BindsTight.comp (h : BindsTight read) {bindings : Entries String}
    (hb : AllTight bindings) : BindsTight fun imports => read (bindings.putAll imports) := by
  obtain ⟨more, rest, hmore, hread⟩ := h
  refine ⟨bindings ++ more, rest, hb.append hmore, fun imports => ?_⟩
  rw [Entries.putAll_append]
  exact hread _

/-- A reader may be followed by a mover. -/
theorem BindsTight.map (h : BindsTight read) (mover : List Token → List Token) :
    BindsTight fun imports => ((read imports).1, mover (read imports).2) := by
  obtain ⟨bindings, rest, htight, hread⟩ := h
  exact ⟨bindings, mover rest, htight, fun imports => by simp only [hread]⟩

/-- A name is imported under one alias, or not at all. -/
theorem add_cases (given : Option String) (written full : String) :
    (written = "" ∧ ∀ imports, add given written full imports = imports) ∨
      written ≠ "" ∧ ∃ key, ∀ imports, add given written full imports = imports.put key full := by
  by_cases hw : written = ""
  · exact Or.inl ⟨hw, fun imports => if_pos hw⟩
  refine Or.inr ⟨hw, ?_⟩
  by_cases hgiven : given = none ∨ given = some ""
  · refine ⟨Name.basename written, fun imports => ?_⟩
    rcases hgiven with rfl | rfl
    · exact if_neg hw
    · exact if_neg hw
  · obtain ⟨key, rfl⟩ := Option.ne_none_iff_exists'.mp fun hn => hgiven (Or.inl hn)
    refine ⟨key, fun imports => ?_⟩
    rw [add.eq_def, if_neg hw]
    split
    · next hn => exact absurd hn (Option.some_ne_none key)
    · next he => exact absurd (Or.inr he) hgiven
    · next he => rw [Option.some.inj he]

/-- A name may be imported before a reader is run. -/
theorem BindsTight.comp_add (h : BindsTight read) {written full : String}
    (hfull : written ≠ "" → Name.IsTight full) (given : Option String) :
    BindsTight fun imports => read (add given written full imports) := by
  rcases add_cases given written full with ⟨-, hadd⟩ | ⟨hw, key, hadd⟩
  · exact h.congr fun imports => congrArg read (hadd imports)
  · have hone : AllTight [(key, full)] := by
      intro e he
      rw [List.mem_singleton] at he
      rw [he]
      exact hfull hw
    exact (h.comp hone).congr fun imports => congrArg read (hadd imports)

end Readers

/-! ### Readers -/

/-- The full name of a member below a base. -/
theorem isTight_member {base : String} (hb : base = "" ∨ Name.IsTight base) (name : String)
    (h : Name.trimSeparators name ≠ "") :
    Name.IsTight (if base = "" then Name.trimSeparators name
      else base ++ Name.separator ++ Name.trimSeparators name) := by
  have hmember := Name.isTight_trimSeparators h
  by_cases hbase : base = ""
  · rw [if_pos hbase]
    exact hmember
  · rw [if_neg hbase]
    exact (hb.resolve_left hbase).join hmember

/-- **A group sets bindings of its own.** -/
theorem bindsTight_readGroup {base : String} (hb : base = "" ∨ Name.IsTight base)
    (ts : List Token) : BindsTight (readGroup base ts) := by
  -- the recursion of the reader is over the table too, though the statement is not
  have hgroup : ∀ imports : ImportTable, BindsTight (readGroup base ts) := by
    intro imports
    fun_induction readGroup base ts imports with
    | case1 ts imports hs =>
      exact (bindsTight_id []).congr fun imports => readGroup_of_nil base imports hs
    | case2 ts imports t rest hs _ hc =>
      refine (bindsTight_id rest).congr fun imports => ?_
      rw [readGroup_of_cons base imports hs, if_pos hc]
    | case3 ts imports t rest hs _ hc hcomma ih =>
      refine ih.congr fun imports => ?_
      rw [readGroup_of_cons base imports hs, if_neg hc, if_pos hcomma]
    | case4 ts imports t rest hs _ hc hcomma ho _ ih =>
      refine ih.congr fun imports => ?_
      rw [readGroup_of_cons base imports hs, if_neg hc, if_neg hcomma, if_pos ho]
    | case5 ts imports t rest hs _ hc hcomma ho after hn hsemi =>
      refine (bindsTight_id (t :: rest)).congr fun imports => ?_
      rw [readGroup_of_cons base imports hs, if_neg hc, if_neg hcomma, if_neg ho, hn]
      exact if_pos hsemi
    | case6 ts imports t rest hs _ hc hcomma ho after hn hsemi ih =>
      refine ih.congr fun imports => ?_
      rw [readGroup_of_cons base imports hs, if_neg hc, if_neg hcomma, if_neg ho, hn]
      exact if_neg hsemi
    | case7 ts imports t rest hs _ hc hcomma ho name after hn _ member full ih =>
      refine (ih.comp_add (isTight_member hb name) (readAlias after).1).congr fun imports => ?_
      rw [readGroup_of_cons base imports hs, if_neg hc, if_neg hcomma, if_neg ho, hn]
  exact hgroup []

/-- **The clauses of a statement set bindings of their own.** -/
theorem bindsTight_readClauses (ts : List Token) : BindsTight (readClauses ts) := by
  have hclauses : ∀ imports : ImportTable, BindsTight (readClauses ts) := by
    intro imports
    fun_induction readClauses ts imports with
    | case1 ts imports rest hc =>
      refine (bindsTight_id (skipStatement rest)).congr fun imports => ?_
      rw [readClauses_eq, hc]
    | case2 ts imports name after hc base ho group =>
      have hgroup := bindsTight_readGroup (Name.trimSeparators_cases name) after.tail
      refine (hgroup.map skipStatement).congr fun imports => ?_
      rw [readClauses_eq, hc]
      exact if_pos ho
    | case3 ts imports name after hc base ho imports' hr =>
      refine ((bindsTight_id []).comp_add (Name.isTight_trimSeparators (s := name))
        (readAlias after).1).congr fun imports => ?_
      rw [readClauses_eq, hc]
      simp only [if_neg ho, hr]
    | case4 ts imports name after hc base ho imports' t rest hr _ hcomma ih =>
      refine (ih.comp_add (Name.isTight_trimSeparators (s := name)) (readAlias after).1).congr
        fun imports => ?_
      rw [readClauses_eq, hc]
      simp only [if_neg ho, hr, if_pos hcomma]
    | case5 ts imports name after hc base ho imports' t rest hr _ hcomma =>
      refine ((bindsTight_id (skipStatement (t :: rest))).comp_add
        (Name.isTight_trimSeparators (s := name)) (readAlias after).1).congr fun imports => ?_
      rw [readClauses_eq, hc]
      simp only [if_neg ho, hr, if_neg hcomma]
  exact hclauses []

/-- **A statement sets bindings of its own.** -/
theorem bindsTight_readUse (ts : List Token) : BindsTight (readUse ts) := by
  cases hs : skipTrivia ts with
  | nil =>
    refine (bindsTight_id []).congr fun imports => ?_
    rw [readUse, hs]
  | cons t rest =>
    by_cases ho : isOtherImport t = true
    · refine (bindsTight_id (skipStatement (t :: rest))).congr fun imports => ?_
      rw [readUse, hs]
      exact if_pos ho
    · refine (bindsTight_readClauses (t :: rest)).congr fun imports => ?_
      rw [readUse, hs]
      exact if_neg ho

end Import

open Import

namespace ImportTable

/-- **The rest of a file sets bindings of its own,** and nothing of it is left. -/
theorem bindsTight_collect (depth top : Nat) (ts : List Token) :
    BindsTight fun imports => (collect depth top imports ts, []) := by
  have hcollect : ∀ imports : ImportTable,
      BindsTight fun imports => (collect depth top imports ts, []) := by
    intro imports
    fun_induction collect depth top imports ts with
    | case1 =>
      refine (bindsTight_id []).congr fun imports => ?_
      rw [collect]
    | case2 depth top imports t ts ho ih =>
      refine ih.congr fun imports => ?_
      rw [collect, if_pos ho]
    | case3 depth top imports t ts ho hc ih =>
      refine ih.congr fun imports => ?_
      rw [collect, if_neg ho, if_pos hc]
    | case4 depth top imports t ts ho hc hn _ hb ih =>
      refine ih.congr fun imports => ?_
      rw [collect, if_neg ho, if_neg hc, if_pos hn, if_pos hb]
    | case5 depth top imports t ts ho hc hn _ hb ih =>
      refine ih.congr fun imports => ?_
      rw [collect, if_neg ho, if_neg hc, if_pos hn, if_neg hb]
    | case6 depth top imports t ts ho hc hn hu _ ih =>
      obtain ⟨bindings, rest, htight, hread⟩ := bindsTight_readUse ts
      rw [hread] at ih
      refine (ih.comp htight).congr fun imports => ?_
      rw [collect, if_neg ho, if_neg hc, if_neg hn, if_pos hu, hread]
    | case7 depth top imports t ts ho hc hn hu ih =>
      refine ih.congr fun imports => ?_
      rw [collect, if_neg ho, if_neg hc, if_neg hn, if_neg hu]
  exact hcollect []

/-- **What is read is added to what has been imported before.** -/
theorem collect_eq_putAll (depth top : Nat) (imports : ImportTable) (ts : List Token) :
    collect depth top imports ts = (collect depth top [] ts).putAll imports := by
  obtain ⟨bindings, rest, -, hread⟩ := bindsTight_collect depth top ts
  have hall : ∀ imports, collect depth top imports ts = bindings.putAll imports :=
    fun imports => congrArg Prod.fst (hread imports)
  rw [hall, hall, Entries.putAll_putAll]

/-- **Every import stands for a tight name:** one that is not empty and neither starts nor
ends with a separator. -/
theorem isTight_of_mem_ofTokens {ts : List Token} {e : String × String} (h : e ∈ ofTokens ts) :
    Name.IsTight e.2 := by
  obtain ⟨bindings, rest, htight, hread⟩ := bindsTight_collect 0 0 ts
  have hall : ofTokens ts = bindings.putAll [] := congrArg Prod.fst (hread [])
  rw [hall] at h
  exact Entries.forall_mem_putAll (P := fun e => Name.IsTight e.2)
    (fun e he => absurd he List.not_mem_nil) htight e h

end ImportTable
end ClassLineage
