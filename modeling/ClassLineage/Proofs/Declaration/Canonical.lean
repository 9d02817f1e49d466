import ClassLineage.Filesystem.Memory
import ClassLineage.Proofs.Import.Bindings
import ClassLineage.Proofs.Search

/-!
# Names in records

However malformed a file is, the names in its records are in order.  Separators are trimmed from
the names that are imported and from those of namespaces, so that each of them is tight or there
is none; and what is resolved by them is a full name.  So no record refers to the empty name,
which is what a target of separators alone is compared as.

## Main definitions

* `Outline.IsCanonical` — what holds of every outline.
* `Declaration.IsCanonical` — the names in a record are in order.

## Main results

* `Outline.readFrom_isCanonical` — **every outline of a file has a tight namespace,** and what
  else follows from how it is read.
* `Outline.IsCanonical.resolve` — the record that such an outline makes is in order.
* `Declaration.scan_isCanonical` — **every record of a file is in order,** and a search for a text
  of separators gives nothing.
-/

namespace ClassLineage

open Token

/-- What holds of every outline: its namespace is the global one or tight, its short name holds
no separator, and an interface has no traits. -/
structure Outline.IsCanonical (o : Outline) : Prop where
  /-- The namespace is the global one or tight. -/
  space : o.space = "" ∨ Name.IsTight o.space
  /-- The short name holds no separator. -/
  shortName : ∀ c ∈ o.shortName.toList, Name.isSeparator c = false
  /-- An interface has no traits. -/
  traits : o.kind = .interfaceKind → o.traits = []

/-- The names in a record are in order. -/
structure Declaration.IsCanonical (d : Declaration) : Prop where
  /-- The namespace is empty, or it neither starts nor ends with a separator. -/
  space : d.space = "" ∨ Name.IsTight d.space
  /-- The name does not start with a separator. -/
  name_first : ∀ c ∈ d.name.toList.head?, Name.isSeparator c = false
  /-- The name is the short name in the namespace. -/
  name_eq : d.name = Name.qualify d.shortName d.space
  /-- Each name that the record refers to is not empty and does not start with a separator. -/
  related : ∀ relation, ∀ name ∈ d.related relation, Name.IsFull name
  /-- An interface has no traits. -/
  traits : d.kind = "interface" → d.traits = []

namespace Outline

variable {ts : List Token}

/-! ### Outlines -/

/-- A short name is the text of a token that holds no separator. -/
theorem isSeparator_of_readShortName {shortName : String}
    (h : (readShortName ts).1 = some shortName) :
    ∀ c ∈ shortName.toList, Name.isSeparator c = false := by
  rw [readShortName] at h
  cases hs : ts.dropWhile isModifier with
  | nil =>
    rw [hs] at h
    exact absurd h.symm (Option.some_ne_none shortName)
  | cons t rest =>
    rw [hs] at h
    dsimp only at h
    by_cases hn : isShortName t = true
    · rw [if_pos hn] at h
      obtain rfl := Option.some.inj h
      rw [isShortName, Bool.and_eq_true, Bool.not_eq_true', List.any_eq_false] at hn
      exact fun c hc => Bool.eq_false_iff.mpr (hn.2 c hc)
    · rw [if_neg hn] at h
      exact absurd h.symm (Option.some_ne_none shortName)

/-- The namespace behind a head is the one that it declares, or the one before it. -/
theorem space_of_read {space : String} (h : space = "" ∨ Name.IsTight space) (ts : List Token) :
    (NamespaceHead.read ts).declared.getD space = "" ∨
      Name.IsTight ((NamespaceHead.read ts).declared.getD space) := by
  rw [NamespaceHead.read]
  by_cases hrel : NamespaceHead.isRelative ts = true
  · rw [if_pos hrel]
    exact h
  · rw [if_neg hrel]
    exact Name.trimSeparators_cases _

theorem readOutline_isCanonical {space : String} (hspace : space = "" ∨ Name.IsTight space)
    {shortName : String} (hname : ∀ c ∈ shortName.toList, Name.isSeparator c = false)
    (kind : DeclarationKind) (ts : List Token) :
    (readOutline kind space shortName ts).1.IsCanonical where
  space := hspace
  shortName := hname
  traits := by
    rintro rfl
    show (readTraits .interfaceKind (readHeader none [] ts)).1 = []
    rw [readTraits, if_neg (by simp)]

/-- **Every outline of the rest of a file is as it should be,** if the current namespace is: the
head of a namespace keeps it so. -/
theorem readFrom_isCanonical {space : String} (hspace : space = "" ∨ Name.IsTight space)
    (ts : List Token) : ∀ o ∈ readFrom space ts, o.IsCanonical := by
  fun_induction readFrom space ts with
  | case1 => exact fun o ho => absurd ho List.not_mem_nil
  | case2 space t ts hn _ ih => exact ih (space_of_read hspace ts)
  | case3 space t ts hn hk ih => exact ih hspace
  | case4 space t ts hn kind hk _ hname ih => exact ih hspace
  | case5 space t ts hn kind hk _ shortName hname _ ih =>
    intro o ho
    rcases List.mem_cons.mp ho with rfl | ho
    · exact readOutline_isCanonical hspace (isSeparator_of_readShortName hname) kind _
    · exact ih hspace o ho

/-! ### Records -/

/-- **The record that an outline makes is in order,** if its imports stand for tight names. -/
theorem IsCanonical.resolve {o : Outline} (h : o.IsCanonical) {imports : ImportTable}
    (himports : ∀ e ∈ imports, Name.IsTight e.2) (path : String) :
    (o.resolve imports path).IsCanonical where
  space := h.space
  name_first := by
    intro c hc
    show Name.isSeparator c = false
    rcases h.space with hglobal | htight
    · have hname : (o.resolve imports path).name = o.shortName := by
        rw [Outline.resolve, hglobal, Name.qualify_global]
      rw [hname] at hc
      exact h.shortName c (List.mem_of_head? hc)
    · have hname : (o.resolve imports path).name = o.space ++ Name.separator ++ o.shortName :=
        Name.qualify_of_ne o.shortName htight.ne_empty
      rw [hname] at hc
      exact ((htight.isFull.append _).append _).first c hc
  name_eq := rfl
  related := by
    have hfull : ∀ {raw full : String}, Name.resolve imports o.space raw = some full →
        Name.IsFull full :=
      fun hraw => Name.isFull_resolve himports (h.space.imp_right Name.IsTight.isFull) hraw
    intro relation name hname
    cases relation with
    | extending =>
      obtain ⟨raw, -, hraw⟩ := Option.bind_eq_some_iff.mp (Option.mem_toList.mp hname)
      exact hfull hraw
    | implementing =>
      obtain ⟨raw, -, hraw⟩ := List.mem_filterMap.mp hname
      exact hfull hraw
    | usingTrait =>
      obtain ⟨raw, -, hraw⟩ := List.mem_filterMap.mp hname
      exact hfull hraw
  traits := by
    intro hkind
    have hword : o.kind.word = "interface" := hkind
    have hinterface : o.kind = .interfaceKind := by
      cases hk : o.kind with
      | classKind =>
        rw [hk] at hword
        exact absurd hword (by decide)
      | interfaceKind => rfl
    show o.traits.filterMap _ = []
    rw [h.traits hinterface, List.filterMap_nil]

end Outline

namespace Declaration

/-- A record that is in order does not refer to a text of separators. -/
theorem IsCanonical.not_refersTo {d : Declaration} (h : d.IsCanonical) {target : String}
    (ht : ∀ c ∈ target.toList, Name.isSeparator c = true) (relation : Relation) :
    Search.refersTo target relation d = false := by
  rw [Search.refersTo, List.any_eq_false]
  intro name hname
  rw [decide_eq_true_eq, Name.normalize_of_separators ht]
  exact (h.related relation name hname).normalize_ne

/-- **Every record of a file is in order.**  Whatever the tokens are, each import stands for a
tight name and the names in each record are in order; so, whatever the files are and whatever makes
tokens of them, a search for a text of separators finds nothing where it goes well. -/
theorem scan_isCanonical :
    (∀ ts, ∀ e ∈ ImportTable.ofTokens ts, Name.IsTight e.2) ∧
      (∀ path ts, ∀ d ∈ scan path ts, d.IsCanonical) ∧
      ∀ (tokens : Tokenizer) (s : Search tokens) (directory : Path) (target : String)
        (relation : Relation) (declared : List Declaration), (∀ c ∈ target.toList, Name.isSeparator c = true) →
          s.scanDirectory directory = .ok declared →
            s.find directory target relation = .ok [] := by
  have htable : ∀ ts, ∀ e ∈ ImportTable.ofTokens ts, Name.IsTight e.2 := fun ts e he =>
    ImportTable.isTight_of_mem_ofTokens he
  have hscan : ∀ path ts, ∀ d ∈ scan path ts, d.IsCanonical := by
    intro path ts d hd
    obtain ⟨o, ho, rfl⟩ := List.mem_map.mp hd
    exact (Outline.readFrom_isCanonical (Or.inl rfl) ts o ho).resolve (htable ts) path
  refine ⟨htable, hscan, fun tokens s directory target relation declared ht hdeclared => ?_⟩
  have hnone : declared.filter (Search.refersTo target relation) = [] := by
    rw [List.filter_eq_nil_iff]
    intro d hd
    obtain ⟨path, source, -, hsource⟩ := Search.exists_of_mem_scanDirectory hdeclared hd
    rw [(hscan path _ d hsource).not_refersTo ht relation]
    exact Bool.false_ne_true
  rw [Search.find, hdeclared, ← hnone]
  rfl

/-- Names with more separators than they need, and names of separators alone: of a namespace, of
imports and members of a group, and of what a class refers to. -/
def strayFile : List Token :=
  [⟨.keyword .namespaceWord, "namespace", 1⟩, ⟨.name, "App", 1⟩, ⟨.separator, "\\", 1⟩,
    ⟨.symbol, ";", 1⟩, ⟨.keyword .useWord, "use", 2⟩, ⟨.separator, "\\", 2⟩, ⟨.name, "Lib", 2⟩,
    ⟨.separator, "\\", 2⟩, ⟨.keyword .asWord, "as", 2⟩, ⟨.name, "L", 2⟩, ⟨.symbol, ",", 2⟩,
    ⟨.separator, "\\", 2⟩, ⟨.symbol, ",", 2⟩, ⟨.separator, "\\", 2⟩, ⟨.symbol, "\x7b", 2⟩,
    ⟨.separator, "\\", 2⟩, ⟨.name, "One", 2⟩, ⟨.symbol, "\x7d", 2⟩, ⟨.symbol, ";", 2⟩,
    ⟨.keyword .classWord, "class", 3⟩, ⟨.name, "Shop", 3⟩, ⟨.keyword .extendsWord, "extends", 3⟩,
    ⟨.separator, "\\", 3⟩, ⟨.keyword .implementsWord, "implements", 3⟩, ⟨.name, "L", 3⟩,
    ⟨.separator, "\\", 3⟩, ⟨.symbol, ",", 3⟩, ⟨.separator, "\\", 3⟩, ⟨.separator, "\\", 3⟩,
    ⟨.name, "Sold", 3⟩, ⟨.symbol, ";", 3⟩]

/-- The source of a class whose parent is a separator alone. -/
def shopSource : String := "<?php class Shop extends \\ \x7b\x7d"

/-- A search in a single file in memory. -/
def shopSearch : Search := .standard (MemoryFiles.filesystem [("Shop.php", .ok shopSource)])

theorem scan_isCanonical_stray :
    ImportTable.ofTokens strayFile = [("L", "Lib"), ("One", "One")] ∧
      (scan "Stray.php" strayFile).map (fun d => (d.name, d.parent, d.interfaces))
        = [("App\\Shop", none, ["Lib\\", "Sold"])] ∧
      (∀ e ∈ ImportTable.ofTokens strayFile, Name.IsTight e.2) ∧
      (∀ d ∈ scan "Stray.php" strayFile, d.IsCanonical) ∧
      (∀ c ∈ "\\\\".toList, Name.isSeparator c = true) ∧
      shopSearch.scanDirectory ⟨.relative, []⟩
        = .ok (Search.scanSource Php.tokens shopSource "Shop.php") ∧
      shopSearch.find ⟨.relative, []⟩ "\\\\" .extending = .ok [] := by
  obtain ⟨htable, hscan, hfind⟩ := scan_isCanonical
  have ht : ∀ c ∈ "\\\\".toList, Name.isSeparator c = true := by simp [Name.isSeparator]
  have hlist : shopSearch.files.listFiles ⟨.relative, []⟩ = .ok ["Shop.php"] := by
    simp [shopSearch, Search.standard, MemoryFiles.filesystem, MemoryFiles.listFiles,
      MemoryFiles.isBelow, Entries.keys, sortPaths]
  have hread : shopSearch.files.readText "Shop.php" = .ok shopSource := rfl
  have hkeeps : Search.keeps ⟨.relative, []⟩ shopSearch.config.excludes
      shopSearch.config.extensions "Shop.php" = true := by decide +kernel
  have hdeclared := Search.scanDirectory_of_scanFile hlist (s := shopSearch) fun p hp _ =>
    (List.mem_singleton.mp hp).symm ▸ Search.scanFile_of_readText hread
  rw [List.filter_cons_of_pos hkeeps, List.filter_nil, List.flatMap_singleton] at hdeclared
  exact ⟨by decide +kernel, by decide +kernel, htable strayFile, hscan "Stray.php" strayFile, ht,
    hdeclared, hfind Php.tokens shopSearch _ _ .extending _ ht hdeclared⟩

end Declaration
end ClassLineage
