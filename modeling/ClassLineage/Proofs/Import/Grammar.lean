import ClassLineage.Proofs.Entries
import ClassLineage.Proofs.Import.Reduction
import ClassLineage.Proofs.Token.Grammar

/-!
# The imports of a well-formed file

A grammar for files, as far as imports are concerned: import statements with their
clauses and groups, namespaces with and without a block, and all other statements,
whose braces balance.  The grammar relates the tokens of a file, trivia apart, to the
imports that it writes, in order.  The table that is collected is the one that these
make when they are set one after the other.

Two numbers of open blocks are kept while imports are collected.  Every item of a file
leaves them in step, so that the next item is read where imports may stand.

## Main definitions

* `Import.WritesImported` — the name of an import.
* `Import.WritesClauses`, `Import.WritesMembers` — the clauses of a statement, the
  members of a group.
* `Import.WritesStatement` — a statement that imports nothing.
* `Import.WritesItem`, `Import.WritesFile` — what a file is made of, and a file.

## Main results

* `Import.readClauses_append`, `Import.readGroup_append` — imports are read as written.
* `Import.collect_statement` — other statements import nothing, and their blocks close.
* `Import.collect_item` — **an item leaves the two numbers of open blocks in step.**
* `ImportTable.ofTokens_wellFormed` — **the imports of a well-formed file are those that
  it writes.**
-/

namespace ClassLineage

open Token

namespace Import

/-! ### The grammar -/

/-- The separators among the tokens are written as separators. -/
def SpellsSeparators (ts : List Token) : Prop :=
  ∀ t ∈ ts, t.kind = .separator → t.text = Name.separator

/-- `WritesImported full last ts` — the tokens `ts` write a name to import, with or without
a leading separator: `full` is the name without it, `last` its last segment. -/
inductive WritesImported : String → String → List Token → Prop
  | plain {full last : String} {ts : List Token} (h : WritesSegments full last ts)
      (hs : SpellsSeparators ts) : WritesImported full last ts
  | rooted {s : Token} {full last : String} {ts : List Token} (hk : s.kind = .separator)
      (h : WritesSegments full last ts) (hs : SpellsSeparators (s :: ts)) :
      WritesImported full last (s :: ts)

/-- `WritesAlias alias? ts` — the tokens `ts` give this alias, or are none. -/
inductive WritesAlias : Option String → List Token → Prop
  | absent : WritesAlias none []
  | present {word name : Token} (hw : word.isKeyword .asWord = true) (hk : name.kind = .name)
      (hne : name.text ≠ "") : WritesAlias (some name.text) [word, name]

/-- `WritesClauses bindings ts` — the tokens `ts` are the clauses of a statement, at least
one, between commas; an import goes by its alias, or else by its last segment. -/
inductive WritesClauses : Entries String → List Token → Prop
  | one {full last : String} {given : Option String} {ts as : List Token}
      (hn : WritesImported full last ts) (ha : WritesAlias given as) :
      WritesClauses [(given.getD last, full)] (ts ++ as)
  | more {full last : String} {given : Option String} {bindings : Entries String} {comma : Token}
      {ts as us : List Token} (hn : WritesImported full last ts) (ha : WritesAlias given as)
      (hc : comma.isComma = true) (h : WritesClauses bindings us) :
      WritesClauses ((given.getD last, full) :: bindings) (ts ++ (as ++ comma :: us))

/-- `WritesMember base bindings ts` — the tokens `ts` are a member of a group below `base`;
one that names a function or a constant imports nothing. -/
inductive WritesMember (base : String) : Entries String → List Token → Prop
  | name {full last : String} {given : Option String} {ts as : List Token}
      (hn : WritesImported full last ts) (ha : WritesAlias given as) :
      WritesMember base [(given.getD last, base ++ Name.separator ++ full)] (ts ++ as)
  | other {word : Token} {ts : List Token} (hw : isOtherImport word = true)
      (h : ∀ t ∈ ts, t.isComma = false ∧ t.closesBlock = false ∧ t.isSemicolon = false) :
      WritesMember base [] (word :: ts)

/-- `WritesMembers base bindings ts` — the tokens `ts` are the members of a group, between
commas; a comma may stand after the last one. -/
inductive WritesMembers (base : String) : Entries String → List Token → Prop
  | nil : WritesMembers base [] []
  | one {bindings : Entries String} {ts : List Token} (h : WritesMember base bindings ts) :
      WritesMembers base bindings ts
  | more {bindings rest : Entries String} {comma : Token} {ts us : List Token}
      (h : WritesMember base bindings ts) (hc : comma.isComma = true)
      (hs : WritesMembers base rest us) : WritesMembers base (bindings ++ rest) (ts ++ comma :: us)

/-- The token is no import where `rest` follows it: `namespace` stands only before a
separator, and `use` only before a bracket. -/
structure IsNoImport (t : Token) (rest : List Token) : Prop where
  /-- The keyword `namespace` starts a relative name. -/
  relative : t.isKeyword .namespaceWord = true → rest.head?.any (·.kind == .separator) = true
  /-- The keyword `use` is that of a closure. -/
  closure : t.isKeyword .useWord = true → rest.head?.any (·.isSymbol "(") = true

/-- `WritesStatement ts` — the tokens `ts` are statements that import nothing, the last one
ended by a semicolon or by the end of a block: blocks with any balanced content, and other
tokens, outside of the blocks, that are no import. -/
inductive WritesStatement : List Token → Prop
  | stop {t : Token} (h : t.isSemicolon = true) : WritesStatement [t]
  | closed {o c : Token} {inner : List Token} (ho : o.opensBlock = true) (hin : Balanced inner)
      (hc : c.closesBlock = true) : WritesStatement (o :: (inner ++ [c]))
  | plain {t : Token} {ts : List Token} (ho : t.opensBlock = false) (hc : t.closesBlock = false)
      (ht : IsNoImport t ts) (h : WritesStatement ts) : WritesStatement (t :: ts)
  | block {o c : Token} {inner ts : List Token} (ho : o.opensBlock = true) (hin : Balanced inner)
      (hc : c.closesBlock = true) (h : WritesStatement ts) :
      WritesStatement (o :: (inner ++ c :: ts))

/-- `WritesItem bindings ts` — the tokens `ts` are an item of a file, other than the block of
a namespace, and write these imports. -/
inductive WritesItem : Entries String → List Token → Prop
  | mark {t : Token} (ho : t.opensBlock = false) (hc : t.closesBlock = false)
      (hn : t.isKeyword .namespaceWord = false) (hu : t.isKeyword .useWord = false) :
      WritesItem [] [t]
  | namespaceOf {name last : String} {word stop : Token} {ts : List Token}
      (hw : word.isKeyword .namespaceWord = true) (hn : WritesSegments name last ts)
      (hs : stop.isSemicolon = true) : WritesItem [] (word :: (ts ++ [stop]))
  | names {bindings : Entries String} {word stop : Token} {ts : List Token}
      (hw : word.isKeyword .useWord = true) (h : WritesClauses bindings ts)
      (hs : stop.isSemicolon = true) : WritesItem bindings (word :: (ts ++ [stop]))
  | group {base last : String} {bindings : Entries String} {word s o c stop : Token}
      {ts us : List Token} (hw : word.isKeyword .useWord = true)
      (hn : WritesImported base last ts) (hk : s.kind = .separator)
      (ht : s.text = Name.separator) (ho : o.opensBlock = true)
      (h : WritesMembers base bindings us) (hc : c.closesBlock = true)
      (hs : stop.isSemicolon = true) :
      WritesItem bindings (word :: (ts ++ s :: o :: (us ++ [c, stop])))
  | others {word kind : Token} {ts : List Token} (hw : word.isKeyword .useWord = true)
      (hk : isOtherImport kind = true) (h : WritesStatement ts) :
      WritesItem [] (word :: kind :: ts)
  | statement {ts : List Token} (h : WritesStatement ts) : WritesItem [] ts

/-- `WritesItems bindings ts` — the tokens `ts` are a sequence of items. -/
inductive WritesItems : Entries String → List Token → Prop
  | nil : WritesItems [] []
  | cons {bindings more : Entries String} {ts us : List Token} (h : WritesItem bindings ts)
      (hs : WritesItems more us) : WritesItems (bindings ++ more) (ts ++ us)

/-- `WritesFile bindings ts` — the tokens `ts` are a well-formed file, a sequence of items and
of blocks of namespaces around items, and write these imports in order. -/
inductive WritesFile : Entries String → List Token → Prop
  | nil : WritesFile [] []
  | item {bindings more : Entries String} {ts us : List Token} (h : WritesItem bindings ts)
      (hs : WritesFile more us) : WritesFile (bindings ++ more) (ts ++ us)
  | block {name last : String} {bindings more : Entries String} {word o c : Token}
      {ts body us : List Token} (hw : word.isKeyword .namespaceWord = true)
      (hn : WritesSegments name last ts) (ho : o.opensBlock = true)
      (hb : WritesItems bindings body) (hc : c.closesBlock = true) (hs : WritesFile more us) :
      WritesFile (bindings ++ more) (word :: (ts ++ o :: (body ++ c :: us)))
  | globalBlock {bindings more : Entries String} {word o c : Token} {body us : List Token}
      (hw : word.isKeyword .namespaceWord = true) (ho : o.opensBlock = true)
      (hb : WritesItems bindings body) (hc : c.closesBlock = true) (hs : WritesFile more us) :
      WritesFile (bindings ++ more) (word :: o :: (body ++ c :: us))

/-! ### Names of imports -/

/-- A leading separator is not part of what is imported, and neither is one that follows, as
before the braces of a group. -/
theorem WritesImported.exists_name {full last : String} {ts : List Token}
    (h : WritesImported full last ts) :
    ∃ text, WritesName text ts ∧ Name.trimSeparators text = full ∧
      Name.trimSeparators (text ++ Name.separator) = full := by
  cases h with
  | plain h _ => exact ⟨full, .plain h, h.isTight.trimSeparators, h.isTight.trimSeparators_append⟩
  | @rooted s full last ts hk h hs =>
    refine ⟨s.text ++ full, .rooted hk h, ?_, ?_⟩
    · rw [hs s List.mem_cons_self hk, Name.trimSeparators_separator_append,
        h.isTight.trimSeparators]
    · rw [hs s List.mem_cons_self hk, String.append_assoc, Name.trimSeparators_separator_append,
        h.isTight.trimSeparators_append]

theorem WritesImported.isTight {full last : String} {ts : List Token}
    (h : WritesImported full last ts) : Name.IsTight full := by
  cases h with
  | plain h _ | rooted _ h _ => exact h.isTight

/-- The last segment of what is imported is the one that is written last. -/
theorem lastSegment_eq {full last : String} {ts : List Token} (h : WritesSegments full last ts)
    (hs : SpellsSeparators ts) : Name.lastSegment full = last := by
  induction h with
  | one ht => exact Name.lastSegment_eq_self ht.all_ne
  | @join t s text last ts ht hk _ ih =>
    have hsep : s.text = Name.separator :=
      hs s (List.mem_cons_of_mem _ List.mem_cons_self) hk
    rw [hsep, Name.lastSegment_join]
    exact ih fun u hu => hs u (List.mem_cons_of_mem _ (List.mem_cons_of_mem _ hu))

theorem WritesImported.basename {full last : String} {ts : List Token}
    (h : WritesImported full last ts) : Name.basename full = last := by
  rw [Name.basename, Name.trimEnd_eq_self h.isTight.last]
  cases h with
  | plain h hs => exact lastSegment_eq h hs
  | rooted _ h hs => exact lastSegment_eq h fun u hu => hs u (List.mem_cons_of_mem _ hu)

/-- A name starts with a token that is a part of it. -/
theorem WritesImported.exists_cons {full last : String} {ts : List Token}
    (h : WritesImported full last ts) : ∃ t us, ts = t :: us ∧ t.isNamePart = true := by
  obtain ⟨text, hname, -, -⟩ := h.exists_name
  obtain ⟨t, us, rfl⟩ := List.exists_cons_of_ne_nil hname.ne_nil
  exact ⟨t, us, rfl, hname.isNamePart t List.mem_cons_self⟩

/-- A name is imported under its alias, or else under its last segment. -/
theorem add_eq {full last : String} {ts as : List Token} {given : Option String}
    (hn : WritesImported full last ts) (ha : WritesAlias given as) {written : String}
    (hw : written = full) (target : String) (imports : ImportTable) :
    add given written target imports = imports.put (given.getD last) target := by
  subst hw
  rw [add.eq_def, if_neg hn.isTight.ne_empty]
  cases ha with
  | absent => rw [hn.basename]; rfl
  | present _ _ hne =>
    split
    · next h => exact absurd h (Option.some_ne_none _)
    · next h => exact absurd (Option.some.inj h) hne
    · next h => obtain rfl := Option.some.inj h; rfl

/-! ### Clauses and groups -/

/-- An alias is read as it is written, up to a token of punctuation. -/
theorem readAlias_append {given : Option String} {as : List Token} (h : WritesAlias given as)
    {t : Token} {s : String} (ht : t.isSymbol s = true) (rest : List Token) :
    readAlias (as ++ t :: rest) = (given, t :: rest) := by
  cases h with
  | absent =>
    rw [List.nil_append, readAlias, skipTrivia_cons (isTrivia_of_isSymbol ht)]
    simp only [isKeyword_of_isSymbol ht, Bool.false_eq_true, if_false]
  | @present word name hw hk _ =>
    have hname : name.isTrivia = false := by simp [isTrivia, hk]
    show readAlias (word :: name :: t :: rest) = _
    rw [readAlias, skipTrivia_cons (isTrivia_of_isKeyword hw)]
    simp only [hw, if_true, skipTrivia_cons hname, hk, beq_self_eq_true]

/-- What follows a name, its alias or the punctuation after it, is no part of it and opens no
block. -/
theorem WritesAlias.exists_head {given : Option String} {as : List Token}
    (h : WritesAlias given as) (hm : MarksInterpolate as) {t : Token} {s : String}
    (ht : t.isSymbol s = true) (ho : t.opensBlock = false) (rest : List Token) :
    ∃ u us, as ++ t :: rest = u :: us ∧ u.isInName = false ∧ u.opensBlock = false := by
  cases h with
  | absent => exact ⟨t, rest, rfl, isInName_of_isSymbol ht, ho⟩
  | present hw _ _ =>
    exact ⟨_, _, rfl, isInName_of_isKeyword hw, hm.opensBlock_of_isKeyword List.mem_cons_self hw⟩

/-- A clause is read up to the punctuation after it. -/
theorem readClauses_clause {full last : String} {given : Option String} {ts as : List Token}
    (hn : WritesImported full last ts) (ha : WritesAlias given as) (hm : MarksInterpolate as)
    {t : Token} {s : String} (ht : t.isSymbol s = true) (ho : t.opensBlock = false)
    (rest : List Token) (imports : ImportTable) :
    readClauses (ts ++ (as ++ t :: rest)) imports
      = if t.isComma then readClauses rest (imports.put (given.getD last) full)
        else (imports.put (given.getD last) full, skipStatement (t :: rest)) := by
  obtain ⟨text, hname, htrim, -⟩ := hn.exists_name
  obtain ⟨u, us, hus, hin, huo⟩ := ha.exists_head hm ht ho rest
  have hcollect : collectName (ts ++ (as ++ t :: rest)) = (some text, as ++ t :: rest) := by
    rw [hus]
    exact collectName_append hname hin us
  have hhead : (as ++ t :: rest).head?.any Token.opensBlock = false := by
    rw [hus]
    exact huo
  rw [readClauses_eq]
  simp only [hcollect, hhead, Bool.false_eq_true, if_false, htrim, readAlias_append ha ht,
    add_eq hn ha rfl, skipTrivia_cons (isTrivia_of_isSymbol ht)]

/-- **The clauses of a statement are read as they are written.** -/
theorem readClauses_append {bindings : Entries String} {ts : List Token}
    (h : WritesClauses bindings ts) (hm : MarksInterpolate ts) {stop : Token}
    (hs : stop.isSemicolon = true) (rest : List Token) (imports : ImportTable) :
    readClauses (ts ++ stop :: rest) imports = (bindings.putAll imports, rest) := by
  induction h generalizing imports with
  | @one full last given ts as hn ha =>
    have hcomma : stop.isComma = false := by
      rw [← Bool.not_eq_true]
      intro hc
      rw [isSemicolon_of_isComma hc] at hs
      exact Bool.false_ne_true hs
    rw [List.append_assoc, readClauses_clause hn ha (hm.of_subset (List.subset_append_right _ _)) hs
      (opensBlock_of_isSemicolon hs), hcomma, if_neg Bool.false_ne_true, skipStatement, if_pos hs]
    rfl
  | @more full last given bindings comma ts as us hn ha hc _ ih =>
    have hmas : MarksInterpolate as := hm.of_subset fun u hu => by simp [hu]
    have hmus : MarksInterpolate us := hm.of_subset fun u hu => by simp [hu]
    have hsplit : (ts ++ (as ++ comma :: us)) ++ stop :: rest
        = ts ++ (as ++ comma :: (us ++ stop :: rest)) := by simp
    rw [hsplit, readClauses_clause hn ha hmas hc (opensBlock_of_isComma hc), if_pos hc, ih hmus]
    rfl

/-- The tokens of a member that imports nothing are passed over. -/
theorem skipMember_append {ts : List Token}
    (h : ∀ t ∈ ts, t.isComma = false ∧ t.closesBlock = false ∧ t.isSemicolon = false) {t : Token}
    (ht : (t.isComma || t.closesBlock) = true) (rest : List Token) :
    skipMember (ts ++ t :: rest) = t :: rest := by
  have hin : ∀ u ∈ ts, (!(u.isComma || u.closesBlock || u.isSemicolon)) = true := by
    intro u hu
    obtain ⟨hc, hb, hs⟩ := h u hu
    rw [hc, hb, hs]
    rfl
  rw [skipMember, List.dropWhile_append_of_pos hin, List.dropWhile_cons_of_neg (by simp [ht])]

theorem isTrivia_of_isOtherImport {t : Token} (h : isOtherImport t = true) :
    t.isTrivia = false := by
  rw [isOtherImport, Bool.or_eq_true] at h
  rcases h with h | h <;> exact isTrivia_of_isKeyword h

theorem isSymbol_of_isOtherImport {t : Token} (h : isOtherImport t = true) (s : String) :
    t.isSymbol s = false := by
  rw [isOtherImport, Bool.or_eq_true] at h
  rcases h with h | h <;> exact isSymbol_of_isKeyword h s

theorem isOtherImport_of_isNamePart {t : Token} (h : t.isNamePart = true) :
    isOtherImport t = false := by
  rw [isOtherImport, isKeyword_of_isNamePart h, isKeyword_of_isNamePart h]
  rfl

/-- A member of a group is read up to the punctuation after it. -/
theorem readGroup_member {base : String} (hb : base ≠ "") {bindings : Entries String}
    {ts : List Token} (h : WritesMember base bindings ts) (hm : MarksInterpolate ts) {t : Token}
    {s : String} (ht : t.isSymbol s = true) (hend : (t.isComma || t.closesBlock) = true)
    (ho : t.opensBlock = false) (rest : List Token) (imports : ImportTable) :
    readGroup base (ts ++ t :: rest) imports
      = readGroup base (t :: rest) (bindings.putAll imports) := by
  cases h with
  | @name full last given ts as hn ha =>
    obtain ⟨text, hname, htrim, -⟩ := hn.exists_name
    obtain ⟨u, us, rfl, hpart⟩ := hn.exists_cons
    obtain ⟨v, vs, hvs, hin, -⟩ :=
      ha.exists_head (hm.of_subset (List.subset_append_right _ _)) ht ho rest
    have hcollect : collectName (u :: (us ++ (as ++ t :: rest)))
        = (some text, as ++ t :: rest) := by
      rw [hvs]
      exact collectName_append hname hin vs
    have hclose : u.closesBlock = false := isSymbol_of_isNamePart hpart _
    have hcomma : u.isComma = false := isSymbol_of_isNamePart hpart _
    rw [List.append_assoc, List.cons_append,
      readGroup_of_cons base imports (skipTrivia_cons (isTrivia_of_isNamePart hpart) _)]
    simp only [hclose, hcomma, isOtherImport_of_isNamePart hpart, Bool.false_eq_true, if_false,
      hcollect, htrim, if_neg hb, readAlias_append ha ht, add_eq hn ha rfl]
    rfl
  | @other word ts hw hts =>
    have hclose : word.closesBlock = false := isSymbol_of_isOtherImport hw _
    have hcomma : word.isComma = false := isSymbol_of_isOtherImport hw _
    rw [List.cons_append,
      readGroup_of_cons base imports (skipTrivia_cons (isTrivia_of_isOtherImport hw) _), hclose,
      hcomma, hw, if_neg Bool.false_ne_true, if_neg Bool.false_ne_true, if_pos rfl,
      skipMember_append hts hend]
    rfl

/-- A brace that closes a group ends it. -/
theorem readGroup_closesBlock {c : Token} (hc : c.closesBlock = true) (base : String)
    (rest : List Token) (imports : ImportTable) :
    readGroup base (c :: rest) imports = (imports, rest) := by
  rw [readGroup_of_cons base imports (skipTrivia_cons (isTrivia_of_isSymbol hc) _), if_pos hc]

/-- **The members of a group are read as they are written.** -/
theorem readGroup_append {base : String} (hb : base ≠ "") {bindings : Entries String}
    {us : List Token} (h : WritesMembers base bindings us) (hm : MarksInterpolate us) {c : Token}
    (hc : c.closesBlock = true) (rest : List Token) (imports : ImportTable) :
    readGroup base (us ++ c :: rest) imports = (bindings.putAll imports, rest) := by
  induction h generalizing imports with
  | nil => exact readGroup_closesBlock hc base rest imports
  | one h =>
    rw [readGroup_member hb h hm hc (by rw [hc, Bool.or_true]) (opensBlock_of_closesBlock hc),
      readGroup_closesBlock hc]
  | @more bindings others comma ts us h hcomma _ ih =>
    have hmts : MarksInterpolate ts := hm.of_subset fun u hu => by simp [hu]
    have hmus : MarksInterpolate us := hm.of_subset fun u hu => by simp [hu]
    -- a comma is no brace
    have hclose : comma.closesBlock = false := by
      rw [← Bool.not_eq_true]
      intro hcb
      rw [closesBlock, isSymbol, Bool.and_eq_true, beq_iff_eq, beq_iff_eq] at hcb
      rw [isComma, isSymbol, Bool.and_eq_true, beq_iff_eq, beq_iff_eq, hcb.2] at hcomma
      exact absurd hcomma.2 (by decide)
    rw [List.append_assoc, List.cons_append, readGroup_member hb h hmts hcomma
      (by rw [hcomma, Bool.true_or]) (opensBlock_of_isComma hcomma),
      readGroup_of_cons base _ (skipTrivia_cons (isTrivia_of_isSymbol hcomma) _), hclose,
      if_neg Bool.false_ne_true, if_pos hcomma, ih hmus, Entries.putAll_append]

/-! ### Statements that import nothing -/

section Collect

variable {depth top : Nat} {imports : ImportTable} {t : Token} {ts : List Token}

theorem collect_opensBlock (h : t.opensBlock = true) :
    ImportTable.collect depth top imports (t :: ts)
      = ImportTable.collect (depth + 1) top imports ts := by
  rw [ImportTable.collect, if_pos h]

theorem collect_closesBlock (h : t.closesBlock = true) :
    ImportTable.collect depth top imports (t :: ts)
      = ImportTable.collect (depth - 1) (min top (depth - 1)) imports ts := by
  rw [ImportTable.collect, opensBlock_of_closesBlock h, if_neg Bool.false_ne_true, if_pos h]

/-- A token that is no brace, and no keyword where it counts, is passed over. -/
theorem collect_other (ho : t.opensBlock = false) (hc : t.closesBlock = false)
    (hn : depth = 0 → t.isKeyword .namespaceWord = false)
    (hu : depth = top → t.isKeyword .useWord = false) :
    ImportTable.collect depth top imports (t :: ts)
      = ImportTable.collect depth top imports ts := by
  have hns : ¬(depth = 0 ∧ t.isKeyword .namespaceWord = true) := fun h => by
    rw [hn h.1] at h
    exact Bool.false_ne_true h.2
  have hus : ¬(depth = top ∧ t.isKeyword .useWord = true) := fun h => by
    rw [hu h.1] at h
    exact Bool.false_ne_true h.2
  rw [ImportTable.collect, ho, hc, if_neg Bool.false_ne_true, if_neg Bool.false_ne_true,
    if_neg hns, if_neg hus]

/-- A statement that imports is read where imports may stand. -/
theorem collect_use (hw : t.isKeyword .useWord = true) (ho : t.opensBlock = false) :
    ImportTable.collect depth depth imports (t :: ts)
      = ImportTable.collect depth depth (readUse ts imports).1 (readUse ts imports).2 := by
  have hc : t.closesBlock = false := isSymbol_of_isKeyword hw _
  have hn : t.isKeyword .namespaceWord = false := isKeyword_of_ne hw (by decide)
  rw [ImportTable.collect, ho, hc, if_neg Bool.false_ne_true, if_neg Bool.false_ne_true,
    if_neg (fun h => by rw [hn] at h; exact Bool.false_ne_true h.2), if_pos ⟨rfl, hw⟩]

/-- Inside a block nothing is imported, whatever it holds, where imports may stand only
outside of it. -/
theorem collect_balanced {inner : List Token} (h : Balanced inner) (extra : Nat)
    (rest : List Token) :
    ImportTable.collect (top + extra + 1) top imports (inner ++ rest)
      = ImportTable.collect (top + extra + 1) top imports rest := by
  induction h generalizing extra rest with
  | nil => rfl
  | plain ho hc _ ih =>
    rw [List.cons_append, collect_other ho hc (fun h => absurd h (by omega))
      (fun h => absurd h (by omega))]
    exact ih extra rest
  | @block o c inner ts ho _ hc _ ihin ih =>
    -- inside of the block one more is open; its brace leaves `top` as it is, which is smaller
    have hmin : min top (top + (extra + 1) + 1 - 1) = top := by omega
    have hdepth : top + (extra + 1) + 1 - 1 = top + extra + 1 := by omega
    rw [List.cons_append, List.append_assoc, collect_opensBlock ho]
    show ImportTable.collect (top + (extra + 1) + 1) top imports _ = _
    rw [ihin (extra + 1), List.cons_append, collect_closesBlock hc, hmin, hdepth]
    exact ih extra rest

/-- A block that is closed leaves the numbers of open blocks as they were. -/
theorem collect_block {o c : Token} {inner : List Token} (ho : o.opensBlock = true)
    (hin : Balanced inner) (hc : c.closesBlock = true) (rest : List Token) :
    ImportTable.collect depth depth imports (o :: (inner ++ c :: rest))
      = ImportTable.collect depth depth imports rest := by
  have hmin : min depth (depth + 0 + 1 - 1) = depth := by omega
  rw [collect_opensBlock ho]
  show ImportTable.collect (depth + 0 + 1) depth imports _ = _
  rw [collect_balanced hin 0, collect_closesBlock hc, hmin]
  rfl

end Collect

/-- Skipping inside of a statement ends behind it, or inside of it where a statement is left. -/
theorem skipStatement_append {ts : List Token} (h : WritesStatement ts) (rest : List Token) :
    skipStatement (ts ++ rest) = rest ∨
      ∃ us, WritesStatement us ∧ us <:+ ts ∧ skipStatement (ts ++ rest) = us ++ rest := by
  have hbrace : ∀ {o : Token} {us : List Token}, o.opensBlock = true →
      skipStatement (o :: us) = o :: us := by
    intro o us ho
    have hs : o.isSemicolon = false := by
      rw [← Bool.not_eq_true]
      intro hs
      rw [opensBlock_of_isSemicolon hs] at ho
      exact Bool.false_ne_true ho
    rw [skipStatement, hs, ho]
    rfl
  induction h with
  | stop hs => exact Or.inl (by rw [List.singleton_append, skipStatement, if_pos hs])
  | closed ho hin hc => exact Or.inr ⟨_, .closed ho hin hc, List.suffix_rfl, hbrace ho⟩
  | @plain t ts ho hc _ h ih =>
    -- behind a semicolon that is not the last one, a statement is left
    by_cases hs : t.isSemicolon = true
    · refine Or.inr ⟨ts, h, List.suffix_cons t ts, ?_⟩
      rw [List.cons_append, skipStatement, if_pos hs]
    · have hskip : skipStatement (t :: ts ++ rest) = skipStatement (ts ++ rest) := by
        rw [List.cons_append, skipStatement, if_neg hs, ho, hc]
        rfl
      rw [hskip]
      rcases ih with ih | ⟨us, hus, hsuf, heq⟩
      · exact Or.inl ih
      · exact Or.inr ⟨us, hus, hsuf.trans (List.suffix_cons t ts), heq⟩
  | block ho hin hc h _ => exact Or.inr ⟨_, .block ho hin hc h, List.suffix_rfl, hbrace ho⟩

/-- The keyword of a closure is followed by what it binds, and imports nothing. -/
theorem readUse_closure {t : Token} (ht : t.isSymbol "(" = true) (rest : List Token)
    (imports : ImportTable) :
    readUse (t :: rest) imports = (imports, skipStatement (t :: rest)) := by
  have hother : isOtherImport t = false := by
    rw [isOtherImport, isKeyword_of_isSymbol ht, isKeyword_of_isSymbol ht]
    rfl
  rw [readUse, skipTrivia_cons (isTrivia_of_isSymbol ht)]
  simp only [hother, Bool.false_eq_true, if_false]
  rw [readClauses_eq]
  simp only [collectName_of_not_isInName (isInName_of_isSymbol ht)]

/-- Imports of functions and constants import no class. -/
theorem readUse_isOtherImport {t : Token} (ht : isOtherImport t = true) (rest : List Token)
    (imports : ImportTable) :
    readUse (t :: rest) imports = (imports, skipStatement (t :: rest)) := by
  rw [readUse, skipTrivia_cons (isTrivia_of_isOtherImport ht)]
  simp only [ht, if_true]

/-- A relative name at the top of a file is no namespace. -/
theorem collect_relative {t : Token} {ts : List Token} (hw : t.isKeyword .namespaceWord = true)
    (ho : t.opensBlock = false) (h : ts.head?.any (·.kind == .separator) = true) (top : Nat)
    (imports : ImportTable) :
    ImportTable.collect 0 top imports (t :: ts) = ImportTable.collect 0 top imports ts := by
  have hskip : skipTrivia ts = ts := by
    cases ts with
    | nil => rfl
    | cons s ts =>
      have hs : s.kind = .separator := by simpa using h
      exact skipTrivia_cons (isTrivia_of_isNamePart (isNamePart_of_separator hs)) ts
  have hread : NamespaceHead.read ts = ⟨none, ts⟩ := by
    rw [NamespaceHead.read, NamespaceHead.isRelative, hskip, if_pos h]
  have hopens : NamespaceHead.opensBlock ts ⟨none, ts⟩ = false :=
    NamespaceHead.opensBlock_of_eq (List.nil_append ts).symm none
  have hc : t.closesBlock = false := isSymbol_of_isKeyword hw _
  rw [ImportTable.collect, ho, hc, if_neg Bool.false_ne_true, if_neg Bool.false_ne_true,
    if_pos ⟨rfl, hw⟩]
  simp only [hread, hopens, Bool.false_eq_true, if_false]

/-- **A statement that is no import leaves the imports and the numbers of open blocks as they
are.**  What follows `use` in it is skipped up to a place inside of the statement, so the
induction is on its length. -/
theorem collect_statement {ts : List Token} (h : WritesStatement ts) (hm : MarksInterpolate ts)
    (depth : Nat) (imports : ImportTable) (rest : List Token) :
    ImportTable.collect depth depth imports (ts ++ rest)
      = ImportTable.collect depth depth imports rest := by
  induction hl : ts.length using Nat.strong_induction_on generalizing ts with
  | _ n ih =>
    cases h with
    | @stop t hs =>
      exact collect_other (opensBlock_of_isSemicolon hs) (closesBlock_of_isSemicolon hs)
        (fun _ => isKeyword_of_isSymbol hs _) (fun _ => isKeyword_of_isSymbol hs _)
    | @closed o c inner ho hin hc =>
      rw [List.cons_append, List.append_assoc]
      exact collect_block ho hin hc rest
    | @block o c inner ts ho hin hc h =>
      have hlen : ts.length < n := by
        rw [← hl, List.length_cons, List.length_append, List.length_cons]
        omega
      have hmts : MarksInterpolate ts := hm.of_subset fun u hu => by simp [hu]
      rw [List.cons_append, List.append_assoc, List.cons_append, collect_block ho hin hc]
      exact ih _ hlen h hmts rfl
    | @plain t ts ho hc ht h =>
      have hlen : ts.length < n := by
        rw [← hl, List.length_cons]
        omega
      have hmts : MarksInterpolate ts := hm.of_subset (List.subset_cons_self _ _)
      have hrest := ih _ hlen h hmts rfl
      rw [List.cons_append]
      by_cases hu : t.isKeyword .useWord = true
      · -- what a closure binds is skipped, and ends inside of the statement
        have hhead := ht.closure hu
        cases ts with
        | nil => cases h
        | cons s ts =>
          have hs : s.isSymbol "(" = true := by simpa using hhead
          rw [collect_use hu ho, List.cons_append, readUse_closure hs, ← List.cons_append]
          rcases skipStatement_append h rest with hskip | ⟨us, hus, hsuf, hskip⟩
          · rw [hskip]
          · rw [hskip]
            exact ih _ (Nat.lt_of_le_of_lt hsuf.length_le hlen) hus
              (hmts.of_subset hsuf.subset) rfl
      · rw [Bool.not_eq_true] at hu
        by_cases hn : depth = 0 ∧ t.isKeyword .namespaceWord = true
        · obtain ⟨rfl, hn⟩ := hn
          have hhead : (ts ++ rest).head?.any (·.kind == .separator) = true := by
            have := ht.relative hn
            cases ts with
            | nil => cases h
            | cons s ts => exact this
          rw [collect_relative hn ho hhead, hrest]
        · rw [collect_other ho hc (fun h => by simpa using fun hk => hn ⟨h, hk⟩) (fun _ => hu),
            hrest]

/-! ### Items of a file -/

/-- Names to import are read clause by clause. -/
theorem readUse_of_isNamePart {t : Token} (h : t.isNamePart = true) (ts : List Token)
    (imports : ImportTable) : readUse (t :: ts) imports = readClauses (t :: ts) imports := by
  rw [readUse, skipTrivia_cons (isTrivia_of_isNamePart h)]
  simp only [isOtherImport_of_isNamePart h, Bool.false_eq_true, if_false]

theorem WritesClauses.exists_cons {bindings : Entries String} {ts : List Token}
    (h : WritesClauses bindings ts) : ∃ t us, ts = t :: us ∧ t.isNamePart = true := by
  cases h with
  | one hn _ | more hn _ _ _ =>
    obtain ⟨t, us, rfl, hpart⟩ := hn.exists_cons
    exact ⟨t, _, List.cons_append, hpart⟩

/-- **A group is read as it is written,** below its base. -/
theorem readClauses_group {base last : String} {bindings : Entries String} {s o c stop : Token}
    {ts us : List Token} (hn : WritesImported base last ts) (hk : s.kind = .separator)
    (hspell : s.text = Name.separator) (hin : o.isInName = false) (ho : o.opensBlock = true)
    (h : WritesMembers base bindings us) (hm : MarksInterpolate us) (hc : c.closesBlock = true)
    (hs : stop.isSemicolon = true) (rest : List Token) (imports : ImportTable) :
    readClauses (ts ++ s :: o :: (us ++ c :: stop :: rest)) imports
      = (bindings.putAll imports, rest) := by
  obtain ⟨text, hname, -, htrim⟩ := hn.exists_name
  have hsplit : ts ++ s :: o :: (us ++ c :: stop :: rest)
      = (ts ++ [s]) ++ o :: (us ++ c :: stop :: rest) := by simp
  have hpart : ∀ u ∈ ts ++ [s], u.isNamePart = true := by
    intro u hu
    rcases List.mem_append.mp hu with hu | hu
    · exact hname.isNamePart u hu
    · rw [List.mem_singleton] at hu
      exact hu ▸ isNamePart_of_separator hk
  have hjoin : String.join ((ts ++ [s]).map (·.text)) = text ++ Name.separator := by
    rw [← String.toList_inj, ← hname.join_text, ← hspell]
    simp [String.toList_join]
  -- the separator before the brace is collected with the base, and trimmed from it
  have hcollect : collectName (ts ++ s :: o :: (us ++ c :: stop :: rest))
      = (some (text ++ Name.separator), o :: (us ++ c :: stop :: rest)) := by
    rw [hsplit, collectName_run (List.append_ne_nil_of_right_ne_nil ts (List.cons_ne_nil s []))
      hpart hin, hjoin]
  rw [readClauses_eq]
  simp only [hcollect, htrim, List.head?_cons, Option.any_some, ho, if_true, List.tail_cons,
    readGroup_append hn.isTight.ne_empty h hm hc]
  rw [skipStatement, if_pos hs]

/-- Tokens that are neither braces nor keywords of imports are passed over. -/
theorem collect_run {depth : Nat} {imports : ImportTable} {ts : List Token}
    (h : ∀ t ∈ ts, t.opensBlock = false ∧ t.closesBlock = false ∧
      (depth = 0 → t.isKeyword .namespaceWord = false) ∧ t.isKeyword .useWord = false)
    (rest : List Token) :
    ImportTable.collect depth depth imports (ts ++ rest)
      = ImportTable.collect depth depth imports rest := by
  induction ts with
  | nil => rfl
  | cons t ts ih =>
    obtain ⟨ho, hc, hn, hu⟩ := h t List.mem_cons_self
    rw [List.cons_append, collect_other ho hc hn fun _ => hu]
    exact ih fun u hu => h u (List.mem_cons_of_mem _ hu)

/-- At the top of a file a namespace is declared; its block is where imports may stand. -/
theorem collect_namespace {word : Token} (hw : word.isKeyword .namespaceWord = true)
    (ho : word.opensBlock = false) {ts : List Token} {stop : Token} {rest : List Token}
    {name : String} (hread : NamespaceHead.read (ts ++ stop :: rest) = ⟨some name, rest⟩)
    (imports : ImportTable) :
    ImportTable.collect 0 0 imports (word :: (ts ++ stop :: rest))
      = if stop.opensBlock then ImportTable.collect 1 1 imports rest
        else ImportTable.collect 0 0 imports rest := by
  have hc : word.closesBlock = false := isSymbol_of_isKeyword hw _
  rw [ImportTable.collect, ho, hc, if_neg Bool.false_ne_true, if_neg Bool.false_ne_true,
    if_pos ⟨rfl, hw⟩]
  simp only [hread, NamespaceHead.opensBlock_append]

/-- The declaration of a namespace without a block adds nothing, whether it is read as one or,
inside of a block, not looked at. -/
theorem collect_namespaceOf {name last : String} {word stop : Token} {ts : List Token}
    (hw : word.isKeyword .namespaceWord = true) (hn : WritesSegments name last ts)
    (hs : stop.isSemicolon = true) (hm : MarksInterpolate (word :: (ts ++ [stop]))) (depth : Nat)
    (imports : ImportTable) (rest : List Token) :
    ImportTable.collect depth depth imports ((word :: (ts ++ [stop])) ++ rest)
      = ImportTable.collect depth depth imports rest := by
  have ho := hm.opensBlock_of_isKeyword List.mem_cons_self hw
  have hso : stop.opensBlock = false := opensBlock_of_isSemicolon hs
  by_cases hd : depth = 0
  · subst hd
    have hsplit : (word :: (ts ++ [stop])) ++ rest = word :: (ts ++ stop :: rest) := by simp
    rw [hsplit, collect_namespace hw ho (NamespaceHead.read_segments hn (isInName_of_isSymbol hs)
      (Or.inl hs) rest), hso, if_neg Bool.false_ne_true]
  · refine collect_run (fun t ht => ?_) rest
    rcases List.mem_cons.mp ht with rfl | ht
    · exact ⟨ho, isSymbol_of_isKeyword hw _, fun h => absurd h hd, isKeyword_of_ne hw (by decide)⟩
    · rcases List.mem_append.mp ht with ht | ht
      · have hpart := hn.isNamePart t ht
        have hto := hm.opensOutsideNames t (by simp [ht]) (isInName_of_isNamePart hpart)
        exact ⟨hto, isSymbol_of_isNamePart hpart _, fun _ => isKeyword_of_isNamePart hpart _,
          isKeyword_of_isNamePart hpart _⟩
      · rw [List.mem_singleton] at ht
        subst ht
        exact ⟨hso, closesBlock_of_isSemicolon hs, fun _ => isKeyword_of_isSymbol hs _,
          isKeyword_of_isSymbol hs _⟩

/-- The mark of an import that names no class starts a statement that imports nothing. -/
theorem WritesStatement.cons_isOtherImport {kind : Token} {ts : List Token}
    (h : WritesStatement ts) (hk : isOtherImport kind = true)
    (hm : MarksInterpolate (kind :: ts)) : WritesStatement (kind :: ts) := by
  have hkind : ∃ k : Keyword, kind.isKeyword k = true ∧ k ≠ .namespaceWord ∧ k ≠ .useWord := by
    rw [isOtherImport, Bool.or_eq_true] at hk
    rcases hk with hk | hk
    · exact ⟨_, hk, by decide, by decide⟩
    · exact ⟨_, hk, by decide, by decide⟩
  obtain ⟨k, hkw, hkn, hku⟩ := hkind
  have hno : IsNoImport kind ts := by
    constructor
    · intro hword
      rw [isKeyword_of_ne hkw hkn] at hword
      exact absurd hword Bool.false_ne_true
    · intro hword
      rw [isKeyword_of_ne hkw hku] at hword
      exact absurd hword Bool.false_ne_true
  exact .plain (hm.opensBlock_of_isKeyword List.mem_cons_self hkw) (isSymbol_of_isKeyword hkw _)
    hno h

/-- An import that names no class adds nothing.  A part of it may be left after skipping, which
is then a statement like others. -/
theorem collect_isOtherImport {word kind : Token} {ts : List Token}
    (hw : word.isKeyword .useWord = true) (hk : isOtherImport kind = true) (h : WritesStatement ts)
    (hm : MarksInterpolate (word :: kind :: ts)) (depth : Nat) (imports : ImportTable)
    (rest : List Token) :
    ImportTable.collect depth depth imports (word :: kind :: ts ++ rest)
      = ImportTable.collect depth depth imports rest := by
  have ho := hm.opensBlock_of_isKeyword List.mem_cons_self hw
  have hmts : MarksInterpolate (kind :: ts) := hm.of_subset (List.subset_cons_self _ _)
  rw [List.cons_append, collect_use hw ho, List.cons_append, readUse_isOtherImport hk,
    ← List.cons_append]
  show ImportTable.collect depth depth imports (skipStatement (kind :: ts ++ rest)) = _
  rcases skipStatement_append (h.cons_isOtherImport hk hmts) rest with
    hskip | ⟨us, hus, hsuf, hskip⟩
  · rw [hskip]
  · rw [hskip, collect_statement hus (hmts.of_subset fun u hu => hsuf.subset hu)]

/-- **An item of a file adds its imports, and leaves the two numbers of open blocks in step.** -/
theorem collect_item {bindings : Entries String} {ts : List Token} (h : WritesItem bindings ts)
    (hm : MarksInterpolate ts) (depth : Nat) (imports : ImportTable) (rest : List Token) :
    ImportTable.collect depth depth imports (ts ++ rest)
      = ImportTable.collect depth depth (bindings.putAll imports) rest := by
  cases h with
  | mark ho hc hn hu => exact collect_other ho hc (fun _ => hn) (fun _ => hu)
  | statement h => exact collect_statement h hm depth imports rest
  | namespaceOf hw hn hs => exact collect_namespaceOf hw hn hs hm depth imports rest
  | @names bindings word stop ts hw h hs =>
    have ho := hm.opensBlock_of_isKeyword List.mem_cons_self hw
    have hmts : MarksInterpolate ts := hm.of_subset fun u hu => by simp [hu]
    have hread : readUse (ts ++ stop :: rest) imports = (bindings.putAll imports, rest) := by
      obtain ⟨t, us, hus, hpart⟩ := h.exists_cons
      have hclauses := readClauses_append h hmts hs rest imports
      rw [hus, List.cons_append] at hclauses ⊢
      rw [readUse_of_isNamePart hpart, hclauses]
    have hsplit : (word :: (ts ++ [stop])) ++ rest = word :: (ts ++ stop :: rest) := by simp
    rw [hsplit, collect_use hw ho, hread]
  | @group base last bindings word s o c stop ts us hw hn hk hspell ho h hc hs =>
    have hwo := hm.opensBlock_of_isKeyword List.mem_cons_self hw
    have hin : o.isInName = false := hm.isInName_of_opensBlock (by simp) ho
    have hmus : MarksInterpolate us := hm.of_subset fun u hu => by simp [hu]
    have hread : readUse (ts ++ s :: o :: (us ++ c :: stop :: rest)) imports
        = (bindings.putAll imports, rest) := by
      have hgroup := readClauses_group hn hk hspell hin ho h hmus hc hs rest imports
      obtain ⟨t, vs, rfl, hpart⟩ := hn.exists_cons
      rw [List.cons_append] at hgroup ⊢
      rw [readUse_of_isNamePart hpart, hgroup]
    have hsplit : (word :: (ts ++ s :: o :: (us ++ [c, stop]))) ++ rest
        = word :: (ts ++ s :: o :: (us ++ c :: stop :: rest)) := by simp
    rw [hsplit, collect_use hw hwo, hread]
  | others hw hk h => exact collect_isOtherImport hw hk h hm depth imports rest

/-- Items add their imports one after the other. -/
theorem collect_items {bindings : Entries String} {ts : List Token} (h : WritesItems bindings ts)
    (hm : MarksInterpolate ts) (depth : Nat) (imports : ImportTable) (rest : List Token) :
    ImportTable.collect depth depth imports (ts ++ rest)
      = ImportTable.collect depth depth (bindings.putAll imports) rest := by
  induction h generalizing imports with
  | nil => rfl
  | cons h _ ih =>
    rw [List.append_assoc, collect_item h (hm.of_subset (List.subset_append_left _ _)),
      ih (hm.of_subset (List.subset_append_right _ _)), Entries.putAll_append]

/-- The block of a namespace adds the imports of the items in it, and is closed behind it. -/
theorem collect_namespaceBlock {bindings : Entries String} {word o c : Token}
    {ts body rest : List Token} {name : String} (hw : word.isKeyword .namespaceWord = true)
    (hwo : word.opensBlock = false)
    (hread : NamespaceHead.read (ts ++ o :: (body ++ c :: rest)) = ⟨some name, body ++ c :: rest⟩)
    (ho : o.opensBlock = true) (hb : WritesItems bindings body) (hm : MarksInterpolate body)
    (hc : c.closesBlock = true) (imports : ImportTable) :
    ImportTable.collect 0 0 imports (word :: (ts ++ o :: (body ++ c :: rest)))
      = ImportTable.collect 0 0 (bindings.putAll imports) rest := by
  rw [collect_namespace hw hwo hread, if_pos ho, collect_items hb hm, collect_closesBlock hc]
  rfl

/-- **The imports of a file are added in order.**  The induction follows the file; between its
parts no block is open. -/
theorem collect_file {bindings : Entries String} {ts : List Token} (h : WritesFile bindings ts)
    (hm : MarksInterpolate ts) (imports : ImportTable) :
    ImportTable.collect 0 0 imports ts = bindings.putAll imports := by
  induction h generalizing imports with
  | nil => rw [ImportTable.collect]; rfl
  | item h _ ih =>
    rw [collect_item h (hm.of_subset (List.subset_append_left _ _)),
      ih (hm.of_subset (List.subset_append_right _ _)), Entries.putAll_append]
  | @block name last bindings more word o c ts body us hw hn ho hb hc _ ih =>
    have hwo := hm.opensBlock_of_isKeyword List.mem_cons_self hw
    have hin : o.isInName = false := hm.isInName_of_opensBlock (by simp) ho
    have hmb : MarksInterpolate body := hm.of_subset fun u hu => by simp [hu]
    have hmus : MarksInterpolate us := hm.of_subset fun u hu => by simp [hu]
    have hread := NamespaceHead.read_segments hn hin (Or.inr ho) (body ++ c :: us)
    rw [collect_namespaceBlock hw hwo hread ho hb hmb hc, ih hmus, Entries.putAll_append]
  | @globalBlock bindings more word o c body us hw ho hb hc _ ih =>
    have hwo := hm.opensBlock_of_isKeyword List.mem_cons_self hw
    have hin : o.isInName = false := hm.isInName_of_opensBlock (by simp) ho
    have hmb : MarksInterpolate body := hm.of_subset fun u hu => by simp [hu]
    have hmus : MarksInterpolate us := hm.of_subset fun u hu => by simp [hu]
    have hread := NamespaceHead.read_global hin ho (body ++ c :: us)
    rw [← List.nil_append (o :: (body ++ c :: us)), collect_namespaceBlock hw hwo
      (by rw [List.nil_append]; exact hread) ho hb hmb hc, ih hmus, Entries.putAll_append]

end Import

open Import

namespace ImportTable

/-- **The imports of a well-formed file are those that it writes.**  They are set in the order
of the file, whatever trivia stands between its tokens, so that of two with the same alias
the later one counts. -/
theorem ofTokens_wellFormed {ts : List Token} {bindings : Entries String} (hm : MarksInterpolate ts)
    (h : WritesFile bindings (significant ts)) : ofTokens ts = bindings.putAll [] := by
  rw [← ofTokens_significant hm.opensOutsideNames]
  exact collect_file h (hm.of_subset (significant_subset ts)) []

/-- The block of a namespace with an alias, a group that names a function too, and a closure in
whose block the word `use` stands. -/
def wellFormedImports : List Token :=
  [⟨.keyword .namespaceWord, "namespace", 1⟩, ⟨.name, "App", 1⟩, ⟨.symbol, "\x7b", 1⟩,
    ⟨.keyword .useWord, "use", 2⟩, ⟨.whitespace, " ", 2⟩, ⟨.name, "Lib", 2⟩,
    ⟨.separator, "\\", 2⟩, ⟨.name, "Base", 2⟩, ⟨.keyword .asWord, "as", 2⟩, ⟨.name, "Root", 2⟩,
    ⟨.symbol, ";", 2⟩, ⟨.keyword .useWord, "use", 3⟩, ⟨.name, "Lib", 3⟩, ⟨.separator, "\\", 3⟩,
    ⟨.symbol, "\x7b", 3⟩, ⟨.name, "Shown", 3⟩, ⟨.symbol, ",", 3⟩,
    ⟨.keyword .functionWord, "function", 3⟩, ⟨.name, "show", 3⟩, ⟨.symbol, "\x7d", 3⟩,
    ⟨.symbol, ";", 3⟩, ⟨.keyword .useWord, "use", 4⟩, ⟨.symbol, "(", 4⟩, ⟨.symbol, ")", 4⟩,
    ⟨.symbol, "\x7b", 4⟩, ⟨.keyword .useWord, "use", 5⟩, ⟨.symbol, "\x7d", 6⟩,
    ⟨.symbol, "\x7d", 7⟩]

theorem ofTokens_wellFormed_sample :
    MarksInterpolate wellFormedImports ∧
      WritesFile [("Root", "Lib\\Base"), ("Shown", "Lib\\Shown")] (significant wellFormedImports) ∧
      ofTokens wellFormedImports = [("Root", "Lib\\Base"), ("Shown", "Lib\\Shown")] := by
  have hsegment : ∀ (text : String) (line : Nat), text ≠ "" →
      text.toList.any Name.isSeparator = false → WritesSegments text text [⟨.name, text, line⟩] :=
    fun text line hne hall => .one (t := ⟨.name, text, line⟩) ⟨rfl, hne, hall⟩
  have hspells : ∀ {ts : List Token}, (∀ t ∈ ts, t.kind = .name) → SpellsSeparators ts := by
    intro ts h t ht hk
    rw [h t ht] at hk
    exact absurd hk (by decide)
  have hm : MarksInterpolate wellFormedImports := by
    simp [MarksInterpolate, wellFormedImports]
  have hbase : WritesImported "Lib\\Base" "Base"
      [⟨.name, "Lib", 2⟩, ⟨.separator, "\\", 2⟩, ⟨.name, "Base", 2⟩] :=
    .plain (.join (t := ⟨.name, "Lib", 2⟩) (s := ⟨.separator, "\\", 2⟩)
      ⟨rfl, by decide, by decide⟩ rfl (hsegment "Base" 2 (by decide) (by decide)))
      (by simp [SpellsSeparators, Name.separator])
  have hclauses : WritesClauses [("Root", "Lib\\Base")]
      ([⟨.name, "Lib", 2⟩, ⟨.separator, "\\", 2⟩, ⟨.name, "Base", 2⟩]
        ++ [⟨.keyword .asWord, "as", 2⟩, ⟨.name, "Root", 2⟩]) :=
    .one hbase (@WritesAlias.present ⟨.keyword .asWord, "as", 2⟩ ⟨.name, "Root", 2⟩ rfl rfl
      (by decide))
  have hlib : WritesImported "Lib" "Lib" [⟨.name, "Lib", 3⟩] :=
    .plain (hsegment "Lib" 3 (by decide) (by decide)) (hspells (by simp))
  have hshown : WritesMember "Lib" [("Shown", "Lib\\Shown")] ([⟨.name, "Shown", 3⟩] ++ []) :=
    .name (.plain (hsegment "Shown" 3 (by decide) (by decide)) (hspells (by simp))) .absent
  have hfunction : WritesMember "Lib" [] [⟨.keyword .functionWord, "function", 3⟩,
      ⟨.name, "show", 3⟩] :=
    .other rfl (by simp [isComma, closesBlock, isSemicolon, isSymbol])
  have hblock : Balanced [⟨.keyword .useWord, "use", 5⟩] := .plain rfl rfl .nil
  have hclosure : WritesStatement [⟨.keyword .useWord, "use", 4⟩, ⟨.symbol, "(", 4⟩,
      ⟨.symbol, ")", 4⟩, ⟨.symbol, "\x7b", 4⟩, ⟨.keyword .useWord, "use", 5⟩,
      ⟨.symbol, "\x7d", 6⟩] :=
    .plain rfl rfl ⟨fun h => absurd h (by decide), fun _ => rfl⟩
      (.plain rfl rfl ⟨fun h => absurd h (by decide), fun h => absurd h (by decide)⟩
        (.plain rfl rfl ⟨fun h => absurd h (by decide), fun h => absurd h (by decide)⟩
          (.closed rfl hblock rfl)))
  have hfile : WritesFile [("Root", "Lib\\Base"), ("Shown", "Lib\\Shown")]
      (significant wellFormedImports) :=
    .block rfl (hsegment "App" 1 (by decide) (by decide)) rfl
      (.cons (@WritesItem.names _ _ ⟨.symbol, ";", 2⟩ _ rfl hclauses rfl)
        (.cons (.group (c := ⟨.symbol, "\x7d", 3⟩) rfl hlib rfl rfl rfl
          (@WritesMembers.more "Lib" _ _ ⟨.symbol, ",", 3⟩ _ _ hshown rfl (.one hfunction)) rfl rfl)
          (.cons (.statement hclosure) .nil))) rfl .nil
  exact ⟨hm, hfile, ofTokens_wellFormed hm hfile⟩

end ImportTable
end ClassLineage
