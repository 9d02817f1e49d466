import ClassLineage.Config
import ClassLineage.Proofs.Except
import ClassLineage.Proofs.Filesystem
import ClassLineage.Proofs.Text.Integer
import ClassLineage.Proofs.Text.Split

/-!
# Configurations that tell themselves

The configuration that an environment tells is in a normal form.  An environment that writes this
form out, its items joined by commas, tells the same configuration again: the excluded directories
may stand in any order, and blanks may stand around the commas.

## Main definitions

* `Config.IsItem` — a text that a list may hold.
* `Config.Lists` — a text lists items.
* `Config.IsCanonical` — the normal form of a configuration.
* `Config.IsToldBy` — an environment writes a configuration out.

## Main results

* `Config.isItem_of_mem_splitList`, `Config.splitList_of_lists` — the items of a list, and the list
  of items.
* `Config.IsSettled.ofEnvironment` — what an environment that writes it out tells.
* `Config.ofEnvironment_again` — **a configuration that is told tells itself.**
-/

namespace ClassLineage
namespace Config

open Text

/-! ### Items of a list -/

/-- A text that a list may hold: it holds no comma, it is not blank, and no blank stands at its
ends. -/
structure IsItem (s : String) : Prop where
  /-- It holds no comma. -/
  noComma : ∀ c ∈ s.toList, c ≠ ','
  /-- It is not blank. -/
  notBlank : isBlankText s = false
  /-- No blank stands at its ends. -/
  trimmed : IsTrimmed isBlank s

instance (s : String) : Decidable (IsItem s) :=
  decidable_of_iff (',' ∉ s.toList ∧ isBlankText s = false ∧ IsTrimmed isBlank s)
    ⟨fun h => ⟨fun _ hc heq => h.1 (heq ▸ hc), h.2.1, h.2.2⟩,
      fun h => ⟨fun hc => h.noComma _ hc rfl, h.notBlank, h.trimmed⟩⟩

/-- The item with blanks around it, if any. -/
def IsPadded (item piece : String) : Prop :=
  ∃ before after, isBlankText before = true ∧ isBlankText after = true ∧
    piece = before ++ item ++ after

/-- The text lists the items: they are joined by commas, with blanks around each, if any. -/
def Lists (items : List String) (text : String) : Prop :=
  ∃ pieces, List.Forall₂ IsPadded items pieces ∧ text = String.intercalate "," pieces

variable {s item piece text : String} {items : List String}

theorem IsItem.ne_empty (h : IsItem s) : s ≠ "" := by
  rintro rfl
  exact absurd h.notBlank (by decide)

/-- A text without blanks at its ends is not blank, unless it is empty. -/
theorem isBlankText_of_isTrimmed (h : IsTrimmed isBlank s) (hne : s ≠ "") :
    isBlankText s = false := by
  obtain ⟨c, cs, hcs⟩ := List.exists_cons_of_ne_nil (mt String.toList_eq_nil_iff.mp hne)
  have hc : isBlank c = false := h.first c (by rw [hcs]; rfl)
  rw [isBlankText, hcs, List.all_cons, hc, Bool.false_and]

/-- **What a list holds are items.** -/
theorem isItem_of_mem_splitList {value : String} (h : s ∈ splitList value) : IsItem s := by
  obtain ⟨hmem, hne⟩ := List.mem_filter.mp h
  obtain ⟨piece, hpiece, rfl⟩ := List.mem_map.mp hmem
  have htrimmed : IsTrimmed isBlank (strip piece) := isTrimmed_trimBoth isBlank piece
  refine ⟨fun c hc => ?_, isBlankText_of_isTrimmed htrimmed (by simpa using hne), htrimmed⟩
  simpa using all_of_mem_splitAll hpiece c (trimBoth_subset isBlank piece hc)

theorem forall_isBlank (h : isBlankText s = true) : ∀ c ∈ s.toList, isBlank c = true :=
  List.all_eq_true.mp h

/-- An item is what is left of itself with blanks around it. -/
theorem IsPadded.strip_eq (h : IsPadded item piece) (hitem : IsItem item) : strip piece = item := by
  obtain ⟨before, after, hbefore, hafter, rfl⟩ := h
  exact hitem.trimmed.trimBoth_pad hitem.ne_empty (forall_isBlank hbefore) (forall_isBlank hafter)

/-- Blanks around an item are no commas. -/
theorem IsPadded.noComma (h : IsPadded item piece) (hitem : IsItem item) :
    ∀ c ∈ piece.toList, c ≠ ',' := by
  obtain ⟨before, after, hbefore, hafter, rfl⟩ := h
  have hblank : ∀ c, isBlank c = true → c ≠ ',' := by
    rintro c hc rfl
    exact absurd hc (by decide)
  intro c hc
  rw [String.toList_append, String.toList_append, List.mem_append, List.mem_append] at hc
  rcases hc with (hc | hc) | hc
  · exact hblank c (forall_isBlank hbefore c hc)
  · exact hitem.noComma c hc
  · exact hblank c (forall_isBlank hafter c hc)

/-- **The items of a list are those that the text lists.** -/
theorem splitList_of_lists (hitems : ∀ item ∈ items, IsItem item) (h : Lists items text) :
    splitList text = items := by
  obtain ⟨pieces, hpieces, rfl⟩ := h
  have hstrip : pieces.map strip = items ∧ ∀ piece ∈ pieces, ∀ c ∈ piece.toList, c ≠ ',' := by
    induction hpieces with
    | nil => exact ⟨rfl, fun piece h => absurd h List.not_mem_nil⟩
    | @cons item piece items pieces hpad _ ih =>
      have hitem := hitems item List.mem_cons_self
      obtain ⟨hmap, hcomma⟩ := ih fun other hother => hitems other (List.mem_cons_of_mem _ hother)
      refine ⟨by rw [List.map_cons, hpad.strip_eq hitem, hmap], fun other hother => ?_⟩
      rcases List.mem_cons.mp hother with rfl | hother
      · exact hpad.noComma hitem
      · exact hcomma other hother
  obtain ⟨hmap, hcomma⟩ := hstrip
  have hkept : items.filter (fun s => decide (s ≠ "")) = items := by
    rw [List.filter_eq_self]
    exact fun item hitem => by simpa using (hitems item hitem).ne_empty
  by_cases hnil : pieces = []
  · -- the empty text has one piece, which is dropped
    subst hnil
    rw [← hmap]
    decide
  · have hsep : ",".toList = [','] := rfl
    rw [splitList, splitAll_intercalate hsep (by simp) hnil
      (fun piece hpiece c hc => by simpa using hcomma piece hpiece c hc), hmap, hkept]

/-! ### Extensions -/

theorem dotted_of_head? (h : s.toList.head? = some '.') : dotted s = s := by
  rw [dotted, if_pos h]

theorem head?_dotted (s : String) : (dotted s).toList.head? = some '.' := by
  rw [dotted]
  split
  · next h => exact h
  · rw [String.toList_append]
    rfl

/-- The point in front of an item makes it no less an item. -/
theorem IsItem.dotted (h : IsItem s) : IsItem (dotted s) := by
  rw [Config.dotted]
  split
  · exact h
  have hne : s.toList ≠ [] := mt String.toList_eq_nil_iff.mp h.ne_empty
  have hlist : ("." ++ s).toList = '.' :: s.toList := by
    rw [String.toList_append]
    rfl
  have htrimmed : IsTrimmed isBlank ("." ++ s) := by
    constructor
    · intro c hc
      rw [hlist, List.head?_cons, Option.mem_some_iff] at hc
      subst hc
      decide
    · intro c hc
      rw [hlist, List.getLast?_cons, Option.mem_some_iff] at hc
      apply h.trimmed.last
      rw [List.getLast?_eq_some_getLast hne, Option.mem_some_iff, ← hc,
        List.getLast?_eq_some_getLast hne, Option.getD_some]
  refine ⟨fun c hc => ?_, isBlankText_of_isTrimmed htrimmed ?_, htrimmed⟩
  · rw [hlist] at hc
    rcases List.mem_cons.mp hc with rfl | hc
    · decide
    · exact h.noComma c hc
  · rw [Ne, ← String.toList_eq_nil_iff, hlist]
    exact List.cons_ne_nil _ _

/-- The extensions that a variable tells. -/
def extensionsOf (value : String) : List String :=
  let extensions := (splitList value).map Config.dotted
  if extensions.isEmpty then defaultExtensions else extensions

theorem extensionsOf_ne_nil (value : String) : extensionsOf value ≠ [] := by
  rw [extensionsOf]
  split
  · decide
  · next h => simpa [List.isEmpty_iff] using h

/-- What a variable tells are items with a point in front. -/
theorem of_mem_extensionsOf {value : String} (h : s ∈ extensionsOf value) :
    s.toList.head? = some '.' ∧ IsItem s := by
  rw [extensionsOf] at h
  split at h
  · obtain rfl := List.mem_singleton.mp h
    decide
  · obtain ⟨item, hitem, rfl⟩ := List.mem_map.mp h
    exact ⟨head?_dotted item, (isItem_of_mem_splitList hitem).dotted⟩

theorem extensionsOf_of_lists (hdotted : ∀ e ∈ items, e.toList.head? = some '.')
    (hitems : ∀ e ∈ items, IsItem e) (hne : items ≠ []) (h : Lists items text) :
    extensionsOf text = items := by
  have hmap : items.map dotted = items :=
    (List.map_congr_left fun e he => dotted_of_head? (hdotted e he)).trans (List.map_id' items)
  rw [extensionsOf, splitList_of_lists hitems h, hmap, if_neg (by simpa [List.isEmpty_iff] using hne)]

/-! ### Excluded directories -/

theorem nodup_eraseDups (items : List String) : items.eraseDups.Nodup := by
  induction hn : items.length using Nat.strong_induction_on generalizing items with
  | _ n ih =>
    cases items with
    | nil => exact List.nodup_nil
    | cons item items =>
      have hshort : (items.filter fun other => !other == item).length < n := by
        rw [← hn, List.length_cons]
        exact Nat.lt_succ_of_le (List.length_filter_le _ _)
      rw [List.eraseDups_cons, List.nodup_cons]
      refine ⟨fun hmem => ?_, ih _ hshort _ rfl⟩
      have hkept := (List.mem_filter.mp (List.mem_eraseDups.mp hmem)).2
      simp at hkept

theorem eraseDups_of_nodup (h : items.Nodup) : items.eraseDups = items := by
  induction items with
  | nil => rfl
  | cons item items ih =>
    obtain ⟨hnot, hrest⟩ := List.nodup_cons.mp h
    have hkept : items.filter (fun other => !other == item) = items := by
      rw [List.filter_eq_self]
      intro other hother
      have hne : other ≠ item := fun heq => hnot (heq ▸ hother)
      simpa using hne
    rw [List.eraseDups_cons, hkept, ih hrest]

/-- What is sorted and there once each is told by any order of it. -/
theorem distinctSorted_of_perm {sorted : List String} (hsorted : sorted.Pairwise (· ≤ ·))
    (hnodup : sorted.Nodup) (h : items.Perm sorted) : distinctSorted items = sorted := by
  have hone : items.eraseDups = items := eraseDups_of_nodup (h.nodup_iff.mpr hnodup)
  rw [distinctSorted, hone]
  exact sortPaths_eq_of_pairwise h hsorted

/-! ### Configurations -/

/-- The normal form of a configuration. -/
structure IsCanonical (c : Config) : Prop where
  /-- Each extension starts with a point. -/
  dotted : ∀ e ∈ c.extensions, e.toList.head? = some '.'
  /-- Each extension is an item. -/
  extensions : ∀ e ∈ c.extensions, IsItem e
  /-- Each excluded directory is an item. -/
  excludes : ∀ e ∈ c.excludes, IsItem e
  /-- There is a worker. -/
  workers : 1 ≤ c.workers

/-- The environment writes the configuration out: its items joined by commas, the excluded
directories in any order, and the number of workers in decimal. -/
structure IsToldBy (c : Config) (env : Environment) : Prop where
  /-- The extensions are listed. -/
  extensions : ∃ text, env.find? extensionsVariable = some text ∧ Lists c.extensions text
  /-- The excluded directories are listed. -/
  excludes : ∃ items text, items.Perm c.excludes ∧ env.find? excludesVariable = some text ∧
    Lists items text
  /-- The number of workers is written. -/
  workers : env.find? workersVariable = some (toString c.workers)

/-- A configuration in normal form that can be told: it has an extension, its directories stand in
order and once each, and it has no more workers than can be read. -/
structure IsSettled (c : Config) : Prop extends IsCanonical c where
  /-- There is an extension. -/
  extensions_ne : c.extensions ≠ []
  /-- The excluded directories stand in order. -/
  sorted : c.excludes.Pairwise (· ≤ ·)
  /-- Each of them is there once. -/
  nodup : c.excludes.Nodup
  /-- The number of workers can be read. -/
  workers_lt : c.workers < 10 ^ maxDigits

variable {env : Environment} {c : Config}

theorem ofEnvironment_eq_ok_iff : ofEnvironment env = .ok c ↔
    ∃ n, readInteger ((env.find? workersVariable).getD "1") = .ok n ∧
      c = ⟨extensionsOf ((env.find? extensionsVariable).getD ""),
        distinctSorted (splitList ((env.find? excludesVariable).getD "")), max 1 n⟩ := by
  unfold ofEnvironment
  dsimp only
  rw [Except.bind_eq_ok_iff]
  constructor
  · rintro ⟨n, hn, h⟩
    exact ⟨n, hn, (Except.ok.inj h).symm⟩
  · rintro ⟨n, hn, rfl⟩
    exact ⟨n, hn, rfl⟩

/-- **What an environment tells is in normal form,** and can be told again. -/
theorem isSettled_of_ofEnvironment (h : ofEnvironment env = .ok c) : c.IsSettled := by
  obtain ⟨n, hn, rfl⟩ := ofEnvironment_eq_ok_iff.mp h
  have hlt := lt_of_readInteger hn
  have hone : (1 : Int) < 10 ^ maxDigits := one_lt_pow₀ (by decide) (by decide)
  exact {
    dotted := fun e he => (of_mem_extensionsOf he).1
    extensions := fun e he => (of_mem_extensionsOf he).2
    excludes := fun e he =>
      isItem_of_mem_splitList (List.mem_eraseDups.mp (List.mem_mergeSort.mp he))
    workers := le_max_left 1 n
    extensions_ne := extensionsOf_ne_nil _
    sorted := pairwise_sortPaths _
    nodup := (List.mergeSort_perm _ _).nodup_iff.mpr (nodup_eraseDups _)
    workers_lt := max_lt hone hlt }

/-- **An environment that writes the normal form out tells it.** -/
theorem IsSettled.ofEnvironment (h : c.IsSettled) (hold : c.IsToldBy env) :
    Config.ofEnvironment env = .ok c := by
  obtain ⟨extensionsText, hextensions, hlists⟩ := hold.extensions
  obtain ⟨items, excludesText, hperm, hexcludes, hitems⟩ := hold.excludes
  have hsplit : splitList excludesText = items :=
    splitList_of_lists (fun item hitem => h.excludes item (hperm.subset hitem)) hitems
  -- the number of workers is a natural one
  obtain ⟨n, hn⟩ := Int.eq_ofNat_of_zero_le (Int.le_trans (by decide) h.workers)
  have hlt : n < 10 ^ maxDigits := by
    have hlt := h.workers_lt
    rw [hn] at hlt
    exact_mod_cast hlt
  have hread : readInteger (toString c.workers) = .ok c.workers := by
    rw [hn]
    exact readInteger_toString hlt
  refine ofEnvironment_eq_ok_iff.mpr ⟨c.workers, ?_, ?_⟩
  · rw [hold.workers]
    exact hread
  · rw [hextensions, hexcludes, Option.getD_some, Option.getD_some, hsplit,
      extensionsOf_of_lists h.dotted h.extensions h.extensions_ne hlists,
      distinctSorted_of_perm h.sorted h.nodup hperm, max_eq_right h.workers]

/-- The environment that writes a configuration out, without blanks. -/
def toEnvironment (c : Config) : Environment :=
  [(extensionsVariable, String.intercalate "," c.extensions),
    (excludesVariable, String.intercalate "," c.excludes), (workersVariable, toString c.workers)]

/-- Items that are joined by commas are listed. -/
theorem lists_intercalate (items : List String) : Lists items (String.intercalate "," items) := by
  refine ⟨items, List.forall₂_same.mpr fun item _ => ⟨"", "", rfl, rfl, ?_⟩, rfl⟩
  rw [String.empty_append, String.append_empty]

theorem isToldBy_toEnvironment (c : Config) : c.IsToldBy c.toEnvironment where
  extensions := ⟨_, rfl, lists_intercalate c.extensions⟩
  excludes := ⟨c.excludes, _, .refl _, rfl, lists_intercalate c.excludes⟩
  workers := rfl

/-- **A configuration that is told tells itself.**  What an environment tells is in normal form, and
each environment that writes it out tells the same configuration; the one that writes it out without
blanks is one of them. -/
theorem ofEnvironment_again (h : ofEnvironment env = .ok c) :
    c.IsCanonical ∧ c.IsToldBy c.toEnvironment ∧
      ∀ again, c.IsToldBy again → ofEnvironment again = .ok c := by
  have hsettled := isSettled_of_ofEnvironment h
  exact ⟨hsettled.toIsCanonical, isToldBy_toEnvironment c,
    fun again hold => hsettled.ofEnvironment hold⟩

/-- An environment with blanks and empty items, an extension without its point and a directory that
is excluded twice. -/
def untidyEnvironment : Environment :=
  [(extensionsVariable, " php, .inc ,,phtml"), (excludesVariable, "vendor, tests,vendor,"),
    (workersVariable, " +0_8 ")]

/-- What it tells. -/
def tidyConfig : Config := ⟨[".php", ".inc", ".phtml"], ["tests", "vendor"], 8⟩

/-- The same written out, with blanks around the commas and the directories in another order. -/
def tidyEnvironment : Environment :=
  [(workersVariable, "8"), (excludesVariable, "vendor,tests"),
    (extensionsVariable, ".php , .inc,\t.phtml")]

theorem ofEnvironment_again_tidy :
    ofEnvironment untidyEnvironment = .ok tidyConfig ∧ tidyConfig.IsToldBy tidyEnvironment ∧
      ofEnvironment tidyEnvironment = .ok tidyConfig := by
  have hextensions : extensionsOf " php, .inc ,,phtml" = [".php", ".inc", ".phtml"] := by
    decide +kernel
  have hexcludes : distinctSorted (splitList "vendor, tests,vendor,") = ["tests", "vendor"] := by
    have hone : (splitList "vendor, tests,vendor,").eraseDups = ["vendor", "tests"] := by
      decide +kernel
    rw [distinctSorted, hone]
    exact sortPaths_eq_of_pairwise (.swap _ _ _) (by decide)
  have hworkers : readInteger " +0_8 " = .ok 8 := by decide +kernel
  have htold : ofEnvironment untidyEnvironment = .ok tidyConfig := by
    refine ofEnvironment_eq_ok_iff.mpr ⟨8, hworkers, ?_⟩
    show tidyConfig = ⟨extensionsOf " php, .inc ,,phtml",
      distinctSorted (splitList "vendor, tests,vendor,"), 8⟩
    rw [hextensions, hexcludes]
    rfl
  have hagain : tidyConfig.IsToldBy tidyEnvironment := {
    extensions := ⟨_, rfl, [".php ", " .inc", "\t.phtml"],
      .cons ⟨"", " ", rfl, rfl, rfl⟩ (.cons ⟨" ", "", rfl, rfl, rfl⟩
        (.cons ⟨"\t", "", rfl, rfl, rfl⟩ .nil)), by decide⟩
    excludes := ⟨["vendor", "tests"], _, .swap _ _ _, rfl, lists_intercalate _⟩
    workers := rfl }
  exact ⟨htold, hagain, (ofEnvironment_again htold).2.2 tidyEnvironment hagain⟩

end Config
end ClassLineage
