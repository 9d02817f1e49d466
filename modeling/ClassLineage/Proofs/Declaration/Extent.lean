import ClassLineage.Proofs.Declaration.Grammar
import ClassLineage.Proofs.Token.Block
import Mathlib.Data.List.Sort

/-!
# The extents of declarations

Which declarations are found in any tokens, well-formed or not.  A declaration is sited at
the keyword `class` or `interface` before a short name.  It extends through the first
semicolon or opening brace after the name, and if that opens the body of a class, through
the brace that closes the body.  Sites inside of the extent of a declaration are part of
it; all other sites are declarations of their own.

## Main definitions

* `Outline.headerEnd`, `Outline.afterExtent` — what is left at the end of a header, and after
  a declaration.
* `Site`, `Site.at?` — the sites of declarations.
* `Reports` — the sites outside of the extents of all that are reported before.

## Main results

* `Outline.readHeader_end`, `Outline.readBody_rest` — where headers and bodies end.
* `Outline.readOutline_rest` — a declaration is read through its extent.
* `Declaration.scanWith_reports` — **the records of a file are those of its reported sites.**
-/

namespace ClassLineage

open Token

namespace Outline

/-- The token ends a header: a semicolon, or a brace that opens a body. -/
def endsHeader (t : Token) : Bool := t.isSemicolon || t.opensBlock

/-- The tokens from the end of a header on. -/
def headerEnd (ts : List Token) : List Token := ts.dropWhile fun t => !endsHeader t

/-- The tokens after a declaration, of those after its short name. -/
def afterExtent (kind : DeclarationKind) (ts : List Token) : List Token :=
  match headerEnd ts with
  | [] => []
  | t :: rest =>
    if kind = .classKind ∧ t.opensBlock then (t :: rest).drop (blockLength 0 (t :: rest)) else rest

end Outline

/-- The site of a declaration. -/
structure Site where
  /-- The position of the keyword. -/
  start : Nat
  /-- What is declared. -/
  kind : DeclarationKind
  /-- The name that it is declared by. -/
  shortName : String
  /-- The position after the declaration. -/
  stop : Nat
deriving Repr, DecidableEq

/-- The site at a position, if it holds a keyword that a short name follows, modifiers and
trivia apart. -/
def Site.at? (ts : List Token) (start : Nat) : Option Site :=
  match ts.drop start with
  | [] => none
  | word :: rest =>
    (DeclarationKind.ofToken? word).bind fun kind =>
      match rest.dropWhile Outline.isModifier with
      | [] => none
      | name :: after =>
        if Outline.isShortName name then
          some ⟨start, kind, name.text, ts.length - (Outline.afterExtent kind after).length⟩
        else none

/-- The sites from the position `start` on that lie outside of the extents of all sites that
are reported before them, in order. -/
structure ReportsFrom (start : Nat) (ts : List Token) (sites : List Site) : Prop where
  /-- The sites stand in the order of the file. -/
  sorted : sites.Pairwise fun r s => r.start < s.start
  /-- A site is reported if no site reported before it extends over it. -/
  mem_iff : ∀ s, s ∈ sites ↔ Site.at? ts s.start = some s ∧ start ≤ s.start ∧
    ∀ r ∈ sites, r.start < s.start → r.stop ≤ s.start

/-- The sites that lie outside of the extents of all sites that are reported before them, in
order. -/
def Reports (ts : List Token) (sites : List Site) : Prop := ReportsFrom 0 ts sites

namespace Outline

/-! ### Where names end -/

/-- The token may be taken by a list of names. -/
def isListed (t : Token) : Bool := t.isComma || t.isInName

/-- What a list of names takes are commas, pieces of names and trivia. -/
theorem readNames_taken (ends : Token → Bool) (ts : List Token) :
    ∃ taken, ts = taken ++ (readNames ends ts).2 ∧ ∀ t ∈ taken, isListed t = true := by
  have hname : ∀ us : List Token, us = us.takeWhile isInName ++ (collectName us).2 ∧
      ∀ t ∈ us.takeWhile isInName, isListed t = true := by
    intro us
    refine ⟨List.takeWhile_append_dropWhile.symm, fun t ht => ?_⟩
    rw [isListed, List.mem_takeWhile_imp ht, Bool.or_true]
  fun_induction readNames ends ts with
  | case1 => exact ⟨[], rfl, fun t ht => absurd ht List.not_mem_nil⟩
  | case2 t rest _ => exact ⟨[], rfl, fun t ht => absurd ht List.not_mem_nil⟩
  | case3 t rest _ hb ih =>
    obtain ⟨taken, htaken, hall⟩ := ih
    refine ⟨t :: taken, congrArg (t :: ·) htaken, fun u hu => ?_⟩
    rcases List.mem_cons.mp hu with rfl | hu
    · rw [Bool.or_eq_true] at hb
      rcases hb with hb | hb
      · rw [isListed, hb, Bool.true_or]
      · rw [isListed, isInName_of_isTrivia hb, Bool.or_true]
    · exact hall u hu
  | case4 t rest _ _ after hc =>
    have h := hname (t :: rest)
    rw [hc] at h
    exact ⟨_, h⟩
  | case5 t rest _ _ name after hc _ more ih =>
    obtain ⟨taken, htaken, hall⟩ := ih
    obtain ⟨hsplit, hrun⟩ := hname (t :: rest)
    rw [hc, htaken, ← List.append_assoc] at hsplit
    refine ⟨_, hsplit, fun u hu => ?_⟩
    rcases List.mem_append.mp hu with hu | hu
    · exact hrun u hu
    · exact hall u hu

section Listed

variable {ts taken : List Token}

/-- What a list of names takes is neither a brace nor the end of a statement. -/
theorem plain_of_isListed (h : OpensOutsideNames ts) (hs : taken ⊆ ts)
    (ht : ∀ t ∈ taken, isListed t = true) {t : Token} (hmem : t ∈ taken) :
    t.opensBlock = false ∧ t.closesBlock = false ∧ t.isSemicolon = false := by
  have hlisted := ht t hmem
  rw [isListed, Bool.or_eq_true] at hlisted
  rcases hlisted with hc | hin
  · exact ⟨opensBlock_of_isComma hc, closesBlock_of_isComma hc, isSemicolon_of_isComma hc⟩
  · exact ⟨h t (hs hmem) hin, isSymbol_of_isInName hin _, isSymbol_of_isInName hin _⟩

end Listed

/-! ### Where headers end -/

theorem headerEnd_cons {t : Token} (h : endsHeader t = true) (ts : List Token) :
    headerEnd (t :: ts) = t :: ts := by
  rw [headerEnd, List.dropWhile_cons_of_neg (by simp [h])]

theorem headerEnd_append {us : List Token} (h : ∀ t ∈ us, endsHeader t = false)
    (ts : List Token) : headerEnd (us ++ ts) = headerEnd ts := by
  rw [headerEnd, List.dropWhile_append_of_pos (fun t ht => by simp [h t ht])]
  rfl

theorem headerEnd_cons_of_plain {t : Token} (ho : ¬t.opensBlock = true)
    (hs : ¬t.isSemicolon = true) (ts : List Token) : headerEnd (t :: ts) = headerEnd ts := by
  show headerEnd ([t] ++ ts) = headerEnd ts
  refine headerEnd_append (fun u hu => ?_) ts
  rw [List.mem_singleton] at hu
  rw [hu, endsHeader, Bool.eq_false_iff.mpr hs, Bool.eq_false_iff.mpr ho]
  rfl

theorem headerEnd_suffix (ts : List Token) : headerEnd ts <:+ ts := List.dropWhile_suffix _

/-- What a list of names takes ends no header. -/
theorem headerEnd_of_isListed {us ts : List Token} (h : OpensOutsideNames (us ++ ts))
    (hus : ∀ t ∈ us, isListed t = true) : headerEnd (us ++ ts) = headerEnd ts := by
  refine headerEnd_append (fun t ht => ?_) ts
  obtain ⟨ho, -, hs⟩ := plain_of_isListed h (List.subset_append_left us ts) hus ht
  rw [endsHeader, hs, ho]
  rfl

/-- **A header ends with the first semicolon or opening brace after the name,** whatever
clauses are in it, and a body follows if that is a brace. -/
theorem readHeader_end {ts : List Token} (h : OpensOutsideNames ts) (parent : Option String)
    (interfaces : List String) :
    (readHeader parent interfaces ts).rest = (headerEnd ts).tail ∧
      (readHeader parent interfaces ts).hasBody = (headerEnd ts).head?.any Token.opensBlock := by
  fun_induction readHeader parent interfaces ts with
  | case1 => exact ⟨rfl, rfl⟩
  | case2 p is t ts ho =>
    rw [headerEnd_cons (by rw [endsHeader, ho, Bool.or_true])]
    exact ⟨rfl, ho.symm⟩
  | case3 p is t ts ho hs =>
    rw [headerEnd_cons (by rw [endsHeader, hs, Bool.true_or])]
    rw [Bool.not_eq_true] at ho
    exact ⟨rfl, ho.symm⟩
  | case4 p is t ts ho hs _ _ ih =>
    -- the parent is made of tokens that end no header
    have hsplit : ts = ts.takeWhile isInName ++ (collectName ts).2 :=
      List.takeWhile_append_dropWhile.symm
    have hskip : headerEnd ts = headerEnd (collectName ts).2 := by
      conv_lhs => rw [hsplit]
      refine headerEnd_of_isListed (hsplit ▸ h.tail) fun u hu => ?_
      rw [isListed, List.mem_takeWhile_imp hu, Bool.or_true]
    rw [headerEnd_cons_of_plain ho hs, hskip]
    exact ih (h.tail.of_suffix (collectName_suffix ts))
  | case5 p is t ts ho hs _ _ _ list ih =>
    obtain ⟨taken, hsplit, hlisted⟩ := readNames_taken endsInterfaces ts
    have hskip : headerEnd ts = headerEnd list.2 := by
      conv_lhs => rw [hsplit]
      exact headerEnd_of_isListed (hsplit ▸ h.tail) hlisted
    rw [headerEnd_cons_of_plain ho hs, hskip]
    exact ih (h.tail.of_suffix (readNames_suffix endsInterfaces ts))
  | case6 p is t ts ho hs _ _ ih =>
    rw [headerEnd_cons_of_plain ho hs]
    exact ih h.tail

/-! ### Where bodies end -/

/-- A statement that uses traits leaves the blocks around it open, and opens none. -/
theorem skipBalanced_readTraitUse {ts : List Token} (h : OpensOutsideNames ts) (depth : Nat) :
    skipBalanced (depth + 1) (readTraitUse ts).2 = skipBalanced (depth + 1) ts := by
  obtain ⟨taken, hsplit, hlisted⟩ := readNames_taken endsTraits ts
  have hplain : ∀ t ∈ taken, t.opensBlock = false ∧ t.closesBlock = false := by
    intro t ht
    obtain ⟨ho, hc, -⟩ := plain_of_isListed h (hsplit ▸ List.subset_append_left _ _) hlisted ht
    exact ⟨ho, hc⟩
  have hnames : skipBalanced (depth + 1) ts
      = skipBalanced (depth + 1) (readNames endsTraits ts).2 := by
    conv_lhs => rw [hsplit]
    exact skipBalanced_plain hplain _ _
  rw [hnames, readTraitUse]
  cases hrest : (readNames endsTraits ts).2 with
  | nil => rfl
  | cons t rest =>
    show skipBalanced (depth + 1) (if t.isSemicolon then (_, rest)
      else if t.opensBlock then (_, skipBalanced 0 (t :: rest)) else (_, t :: rest)).2 = _
    by_cases hs : t.isSemicolon = true
    · rw [if_pos hs, skipBalanced, opensBlock_of_isSemicolon hs, closesBlock_of_isSemicolon hs,
        if_neg Bool.false_ne_true, if_neg Bool.false_ne_true]
    by_cases ho : t.opensBlock = true
    · -- the block that adapts the traits is skipped before what is open around it
      have hsum : 0 + 1 + (depth + 1) = depth + 1 + 1 := by omega
      rw [if_neg hs, if_pos ho, skipBalanced, if_pos ho, skipBalanced_add, hsum]
      conv_rhs => rw [skipBalanced, if_pos ho]
    · rw [if_neg hs, if_neg ho]

/-- **A body ends where counting braces finds the end of its block,** whatever statements that
use traits are in it. -/
theorem readBody_rest {depth : Nat} {ts : List Token} (h : OpensOutsideNames ts)
    (hd : 0 < depth) : (readBody depth ts).2 = skipBalanced depth ts := by
  fun_induction readBody depth ts with
  | case1 => rw [skipBalanced_nil]
  | case2 d t ts ho ih =>
    rw [skipBalanced, if_pos ho]
    exact ih h.tail (Nat.succ_pos d)
  | case3 d t ts ho hc hle => rw [skipBalanced, if_neg ho, if_pos hc, if_pos hle]
  | case4 d t ts ho hc hle ih =>
    rw [skipBalanced, if_neg ho, if_pos hc, if_neg hle]
    exact ih h.tail (by omega)
  | case5 d t ts ho hc hu _ used more ih =>
    have hrest := ih (h.tail.of_suffix (readTraitUse_suffix ts)) hd
    have hskip := skipBalanced_readTraitUse h.tail (d - 1)
    have hdepth : d - 1 + 1 = d := by omega
    rw [hdepth] at hskip
    rw [skipBalanced, if_neg ho, if_neg hc, ← hskip]
    exact hrest
  | case6 d t ts ho hc _ ih =>
    rw [skipBalanced, if_neg ho, if_neg hc]
    exact ih h.tail hd

/-- **A declaration is read through its extent.** -/
theorem readOutline_rest {ts : List Token} (h : OpensOutsideNames ts) (kind : DeclarationKind)
    (space shortName : String) :
    (readOutline kind space shortName ts).2 = afterExtent kind ts := by
  obtain ⟨hrest, hbody⟩ := readHeader_end h none []
  show (readTraits kind (readHeader none [] ts)).2 = _
  rw [readTraits, hrest, hbody, afterExtent]
  cases hend : headerEnd ts with
  | nil => simp
  | cons t rest =>
    have hq : OpensOutsideNames rest :=
      h.of_suffix ((List.suffix_cons t rest).trans (hend ▸ headerEnd_suffix ts))
    show (if kind = .classKind ∧ t.opensBlock = true then readBody 1 rest else ([], rest)).2
      = if kind = .classKind ∧ t.opensBlock then (t :: rest).drop (blockLength 0 (t :: rest))
        else rest
    by_cases hk : kind = .classKind ∧ t.opensBlock = true
    · rw [if_pos hk, if_pos hk, readBody_rest hq Nat.one_pos, ← skipBalanced_zero_eq_drop hk.2,
        skipBalanced, if_pos hk.2]
    · rw [if_neg hk, if_neg hk]

/-! ### What lies between declarations -/

/-- A keyword that no short name follows is passed over with its modifiers. -/
theorem readShortName_taken {ts : List Token} (h : (readShortName ts).1 = none) :
    ∃ taken, ts = taken ++ (readShortName ts).2 ∧
      ∀ t ∈ taken, DeclarationKind.ofToken? t = none := by
  refine ⟨ts.takeWhile isModifier, ?_, fun t ht =>
    ofToken?_of_isModifier (List.mem_takeWhile_imp ht)⟩
  have hsplit : ts = ts.takeWhile isModifier ++ ts.dropWhile isModifier :=
    List.takeWhile_append_dropWhile.symm
  have hrest : (readShortName ts).2 = ts.dropWhile isModifier := by
    rw [readShortName] at h ⊢
    cases hd : ts.dropWhile isModifier with
    | nil => rfl
    | cons t rest =>
      simp only [hd] at h ⊢
      by_cases hn : isShortName t = true
      · rw [if_pos hn] at h
        exact absurd h (Option.some_ne_none _)
      · rw [if_neg hn]
  rw [hrest]
  exact hsplit

theorem ofToken?_of_not_isKeyword {t : Token} (h : ∀ k, t.isKeyword k = false) :
    DeclarationKind.ofToken? t = none := by
  rw [DeclarationKind.ofToken?, h, h]
  rfl

/-- The head of a namespace takes no keyword of a declaration. -/
theorem namespaceHead_taken {ts : List Token} (hm : MarksInterpolate ts) :
    ∃ taken, ts = taken ++ (NamespaceHead.read ts).rest ∧
      ∀ t ∈ taken, DeclarationKind.ofToken? t = none := by
  obtain ⟨taken, hsplit, htaken⟩ := NamespaceHead.read_taken ts
  refine ⟨taken, hsplit, fun t ht => ofToken?_of_not_isKeyword fun k => ?_⟩
  rcases htaken t ht with hin | hs | ho
  · exact isKeyword_of_isInName hin k
  · exact isKeyword_of_isSymbol hs k
  · -- what opens a block is no keyword, as keywords are not written like an interpolation
    have hmem : t ∈ ts := by
      rw [hsplit]
      exact List.mem_append_left _ ht
    rw [← Bool.not_eq_true]
    intro hk
    rw [hm.opensBlock_of_isKeyword hmem hk] at ho
    exact Bool.false_ne_true ho

end Outline

/-! ### Sites -/

namespace Site

variable {ts taken rest : List Token} {word : Token} {kind : DeclarationKind}

/-- Past the end there is no site. -/
theorem at?_of_length_le {i : Nat} (h : ts.length ≤ i) : at? ts i = none := by
  rw [at?, List.drop_eq_nil_iff.mpr h]

/-- A token that is no keyword of a declaration is no site. -/
theorem at?_eq_none {i : Nat} (hdrop : ts.drop i = word :: rest)
    (hw : DeclarationKind.ofToken? word = none) : at? ts i = none := by
  rw [at?, hdrop]
  show (DeclarationKind.ofToken? word).bind _ = none
  rw [hw, Option.bind_none]

/-- At a keyword there is a site if a short name is read after it. -/
theorem at?_keyword {i : Nat} (hdrop : ts.drop i = word :: rest)
    (hw : DeclarationKind.ofToken? word = some kind) :
    at? ts i = (Outline.readShortName rest).1.map fun name =>
      ⟨i, kind, name,
        ts.length - (Outline.afterExtent kind (Outline.readShortName rest).2).length⟩ := by
  rw [at?, hdrop]
  show (DeclarationKind.ofToken? word).bind _ = _
  rw [hw, Option.bind_some, Outline.readShortName]
  cases rest.dropWhile Outline.isModifier with
  | nil => rfl
  | cons name after =>
    dsimp only
    by_cases hn : Outline.isShortName name = true
    · rw [if_pos hn, if_pos hn]
      rfl
    · rw [if_neg hn, if_neg hn]
      rfl

/-- Among tokens that are no keywords of declarations there is no site. -/
theorem at?_of_taken {before : List Token} (h : ∀ t ∈ taken, DeclarationKind.ofToken? t = none)
    {i : Nat} (hle : before.length ≤ i) (hlt : i < before.length + taken.length) :
    at? (before ++ (taken ++ rest)) i = none := by
  obtain ⟨j, rfl⟩ := Nat.exists_eq_add_of_le hle
  have hj : j < taken.length := by omega
  have hdrop : (before ++ (taken ++ rest)).drop (before.length + j)
      = taken[j] :: (taken.drop (j + 1) ++ rest) := by
    rw [List.drop_length_add_append, List.drop_append_of_le_length hj.le,
      List.drop_eq_getElem_cons hj, List.cons_append]
  exact at?_eq_none hdrop (h _ (List.getElem_mem hj))

end Site

/-! ### Reports -/

namespace ReportsFrom

variable {start next : Nat} {ts : List Token} {sites others : List Site}

/-- Past the end no site is reported. -/
theorem nil (h : ts.length ≤ start) : ReportsFrom start ts [] where
  sorted := List.Pairwise.nil
  mem_iff := by
    intro s
    refine ⟨fun hs => absurd hs List.not_mem_nil, fun ⟨hat, hle, _⟩ => ?_⟩
    rw [Site.at?_of_length_le (Nat.le_trans h hle)] at hat
    exact absurd hat.symm (Option.some_ne_none s)

/-- Where no site is passed over, the sites are the same from an earlier position on. -/
theorem skip (h : ReportsFrom next ts sites) (hle : start ≤ next)
    (hnone : ∀ i, start ≤ i → i < next → Site.at? ts i = none) : ReportsFrom start ts sites where
  sorted := h.sorted
  mem_iff := by
    intro s
    rw [h.mem_iff]
    constructor
    · rintro ⟨hat, hs, hout⟩
      exact ⟨hat, Nat.le_trans hle hs, hout⟩
    · rintro ⟨hat, hs, hout⟩
      refine ⟨hat, ?_, hout⟩
      by_contra hlt
      rw [hnone s.start hs (by omega)] at hat
      exact Option.some_ne_none s hat.symm

/-- A site is reported before those that lie behind its extent. -/
theorem cons {site : Site} (h : ReportsFrom site.stop ts sites) (hstart : site.start = start)
    (hat : Site.at? ts start = some site) (hlt : start < site.stop) :
    ReportsFrom start ts (site :: sites) where
  sorted := by
    refine List.pairwise_cons.mpr ⟨fun s hs => ?_, h.sorted⟩
    have := ((h.mem_iff s).mp hs).2.1
    omega
  mem_iff := by
    intro s
    constructor
    · intro hs
      rcases List.mem_cons.mp hs with rfl | hs
      · refine ⟨hstart ▸ hat, hstart.ge, fun r hr hrs => ?_⟩
        rcases List.mem_cons.mp hr with rfl | hr
        · omega
        · have := ((h.mem_iff r).mp hr).2.1
          omega
      · obtain ⟨hats, hles, hout⟩ := (h.mem_iff s).mp hs
        refine ⟨hats, by omega, fun r hr hrs => ?_⟩
        rcases List.mem_cons.mp hr with rfl | hr
        · exact hles
        · exact hout r hr hrs
    · rintro ⟨hats, hles, hout⟩
      by_cases heq : s.start = start
      · rw [heq, hat] at hats
        rw [Option.some.inj hats]
        exact List.mem_cons_self
      · have hbehind := hout site List.mem_cons_self (by omega)
        exact List.mem_cons_of_mem _ ((h.mem_iff s).mpr
          ⟨hats, hbehind, fun r hr => hout r (List.mem_cons_of_mem _ hr)⟩)

/-- Which sites are reported depends on those before them alone, so that the reported sites
are determined. -/
theorem unique (h : ReportsFrom start ts sites) (h' : ReportsFrom start ts others) :
    sites = others := by
  have : Std.Irrefl fun r s : Site => r.start < s.start := ⟨fun s => Nat.lt_irrefl s.start⟩
  have : Std.Antisymm fun r s : Site => r.start < s.start :=
    ⟨fun r s hrs hsr => absurd (Nat.lt_trans hrs hsr) (Nat.lt_irrefl r.start)⟩
  refine List.Pairwise.eq_of_mem_iff h.sorted h'.sorted fun s => ?_
  induction hn : s.start using Nat.strong_induction_on generalizing s with
  | _ n ih =>
    have hbefore : ∀ r : Site, r.start < s.start → (r ∈ sites ↔ r ∈ others) := fun r hr =>
      ih r.start (hn ▸ hr) r rfl
    rw [h.mem_iff, h'.mem_iff]
    constructor
    · rintro ⟨hat, hs, hout⟩
      exact ⟨hat, hs, fun r hr hrs => hout r ((hbefore r hrs).mpr hr) hrs⟩
    · rintro ⟨hat, hs, hout⟩
      exact ⟨hat, hs, fun r hr hrs => hout r ((hbefore r hrs).mp hr) hrs⟩

end ReportsFrom

namespace Outline

/-- **The outlines of the rest of a file are those of the sites reported from there on.** -/
theorem readFrom_reports {before ts : List Token} (hm : MarksInterpolate (before ++ ts))
    (space : String) :
    ∃ sites, ReportsFrom before.length (before ++ ts) sites ∧
      (readFrom space ts).map (fun o => (o.shortName, o.kind))
        = sites.map fun s => (s.shortName, s.kind) := by
  have hskip : ∀ {before taken rest : List Token} {sites : List Site},
      ReportsFrom (before ++ taken).length ((before ++ taken) ++ rest) sites →
      (∀ t ∈ taken, DeclarationKind.ofToken? t = none) →
      ReportsFrom before.length (before ++ (taken ++ rest)) sites := by
    intro before taken rest sites h hnone
    rw [List.append_assoc] at h
    refine h.skip (by rw [List.length_append]; omega) fun i hle hlt => ?_
    exact Site.at?_of_taken hnone hle (by rw [List.length_append] at hlt; exact hlt)
  fun_induction readFrom space ts generalizing before with
  | case1 space => exact ⟨[], .nil (by rw [List.append_nil]), rfl⟩
  | case2 space t ts hn _ ih =>
    have hleft : MarksInterpolate ts := hm.of_subset (by simp)
    obtain ⟨taken, hsplit, hnone⟩ := namespaceHead_taken hleft
    have hall : before ++ t :: ts
        = (before ++ (t :: taken)) ++ (NamespaceHead.read ts).rest := by
      conv_lhs => rw [hsplit]
      simp
    obtain ⟨sites, hsites, hmap⟩ := ih (hall ▸ hm)
    refine ⟨sites, ?_, hmap⟩
    rw [hall, List.append_assoc]
    refine hskip hsites fun u hu => ?_
    rcases List.mem_cons.mp hu with rfl | hu
    · rw [DeclarationKind.ofToken?, isKeyword_of_ne hn (by decide), isKeyword_of_ne hn (by decide)]
      rfl
    · exact hnone u hu
  | case3 space t ts _ hk ih =>
    have hall : before ++ t :: ts = (before ++ [t]) ++ ts := by simp
    obtain ⟨sites, hsites, hmap⟩ := ih (hall ▸ hm)
    refine ⟨sites, hskip hsites fun u hu => ?_, hmap⟩
    rw [List.mem_singleton] at hu
    rw [hu, hk]
  | case4 space t ts _ kind hk _ hname ih =>
    -- no short name follows the keyword, so that it is no site
    obtain ⟨taken, hsplit, hnone⟩ := readShortName_taken hname
    have hall : before ++ t :: ts = (before ++ [t] ++ taken) ++ (readShortName ts).2 := by
      conv_lhs => rw [hsplit]
      simp
    obtain ⟨sites, hsites, hmap⟩ := ih (hall ▸ hm)
    have hword := hskip hsites hnone
    rw [← List.append_assoc, ← hall] at hword
    refine ⟨sites, hword.skip (by rw [List.length_append]; omega) fun i hle hlt => ?_, hmap⟩
    have hi : i = before.length := by
      rw [List.length_append, List.length_singleton] at hlt
      omega
    rw [hi, Site.at?_keyword List.drop_left hk, hname]
    rfl
  | case5 space t ts _ kind hk _ shortName hname _ ih =>
    have hsuffix : (readOutline kind space shortName (readShortName ts).2).2 <:+ t :: ts :=
      (readOutline_suffix _ _ _ _).trans ((readShortName_suffix ts).trans (List.suffix_cons t ts))
    obtain ⟨taken, hsplit⟩ := hsuffix
    have hall : before ++ t :: ts
        = (before ++ taken) ++ (readOutline kind space shortName (readShortName ts).2).2 := by
      rw [← hsplit, List.append_assoc]
    obtain ⟨sites, hsites, hmap⟩ := ih (hall ▸ hm)
    have hquiet : OpensOutsideNames (readShortName ts).2 :=
      hm.opensOutsideNames.of_suffix ((readShortName_suffix ts).trans
        ((List.suffix_cons t ts).trans (List.suffix_append before _)))
    have hdrop : (before ++ t :: ts).drop before.length = t :: ts := List.drop_left
    have hat := Site.at?_keyword hdrop hk
    rw [hname, ← readOutline_rest hquiet kind space shortName] at hat
    have hstop : (before ++ t :: ts).length
        - (readOutline kind space shortName (readShortName ts).2).2.length
          = (before ++ taken).length := by
      rw [hall, List.length_append]
      omega
    rw [← hall] at hsites
    rw [Option.map_some, hstop] at hat
    have htaken : 0 < taken.length := by
      have hle := (readOutline_suffix kind space shortName (readShortName ts).2).length_le
      have hle' := (readShortName_suffix ts).length_le
      have hlen := congrArg List.length hsplit
      rw [List.length_append, List.length_cons] at hlen
      omega
    refine ⟨⟨before.length, kind, shortName, (before ++ taken).length⟩ :: sites,
      ReportsFrom.cons hsites rfl hat ?_, ?_⟩
    · show before.length < (before ++ taken).length
      rw [List.length_append]
      omega
    · rw [List.map_cons, List.map_cons, hmap]
      rfl

end Outline

namespace Declaration

/-- **The records of a file are those of its reported sites.**  Whatever the tokens are, there
is one list of the sites that lie outside of the extents of all sites reported before them,
and the records have their short names and kinds, one for each and in order. -/
theorem scanWith_reports {ts : List Token} (hm : MarksInterpolate ts) (imports : ImportTable)
    (path : String) :
    ∃ sites, (∀ others, Reports ts others ↔ others = sites) ∧
      (scanWith imports path ts).map (fun d => (d.shortName, d.kind))
        = sites.map fun s => (s.shortName, s.kind.word) := by
  have hm' : MarksInterpolate ([] ++ ts) := hm
  obtain ⟨sites, hsites, hmap⟩ := Outline.readFrom_reports hm' ""
  refine ⟨sites, fun others => ⟨fun h => h.unique hsites, fun h => h ▸ hsites⟩, ?_⟩
  have hrecords := congrArg (List.map fun p : String × DeclarationKind => (p.1, p.2.word)) hmap
  rw [List.map_map, List.map_map] at hrecords
  rw [scanWith, List.map_map]
  exact hrecords

/-- An anonymous class, the name of a class as a constant, a class with another one in its
body, and an interface before a class that is not closed. -/
def crowdedFile : List Token :=
  [⟨.other, "new", 1⟩, ⟨.keyword .classWord, "class", 1⟩, ⟨.symbol, "\x7b", 1⟩,
    ⟨.symbol, "\x7d", 1⟩, ⟨.name, "Lib", 2⟩, ⟨.other, "::", 2⟩, ⟨.keyword .classWord, "class", 2⟩,
    ⟨.symbol, ";", 2⟩, ⟨.keyword .classWord, "class", 3⟩, ⟨.whitespace, " ", 3⟩, ⟨.name, "A", 3⟩,
    ⟨.keyword .extendsWord, "extends", 3⟩, ⟨.name, "B", 3⟩, ⟨.symbol, "\x7b", 3⟩,
    ⟨.keyword .classWord, "class", 4⟩, ⟨.name, "C", 4⟩, ⟨.symbol, "\x7b", 4⟩,
    ⟨.symbol, "\x7d", 4⟩, ⟨.symbol, "\x7d", 5⟩, ⟨.keyword .interfaceWord, "interface", 6⟩,
    ⟨.name, "I", 6⟩, ⟨.symbol, "\x7b", 6⟩, ⟨.keyword .classWord, "class", 7⟩, ⟨.name, "D", 7⟩,
    ⟨.symbol, "\x7b", 7⟩, ⟨.keyword .classWord, "class", 8⟩, ⟨.name, "E", 8⟩, ⟨.symbol, ";", 8⟩]

/-- The sites that are reported of it: the class in a body is part of that body, and so is the
class in the body that is not closed. -/
def crowdedSites : List Site :=
  [⟨8, .classKind, "A", 19⟩, ⟨19, .interfaceKind, "I", 22⟩, ⟨22, .classKind, "D", 28⟩]

theorem scanWith_reports_crowded :
    MarksInterpolate crowdedFile ∧ Reports crowdedFile crowdedSites ∧
      (scanWith [] "Crowded.php" crowdedFile).map (fun d => (d.shortName, d.kind))
        = [("A", "class"), ("I", "interface"), ("D", "class")] := by
  have hm : MarksInterpolate crowdedFile := by
    simp [MarksInterpolate, crowdedFile]
  have hD : ReportsFrom 22 crowdedFile [⟨22, .classKind, "D", 28⟩] :=
    .cons (.nil (by decide)) rfl (by decide) (by decide)
  have hI : ReportsFrom 19 crowdedFile
      [⟨19, .interfaceKind, "I", 22⟩, ⟨22, .classKind, "D", 28⟩] :=
    .cons hD rfl (by decide) (by decide)
  have hA : ReportsFrom 8 crowdedFile crowdedSites :=
    .cons hI rfl (by decide) (by decide)
  have hsites : Reports crowdedFile crowdedSites :=
    hA.skip (by decide) (by decide)
  obtain ⟨sites, hunique, hmap⟩ := scanWith_reports hm [] "Crowded.php"
  rw [← (hunique crowdedSites).mp hsites] at hmap
  exact ⟨hm, hsites, hmap⟩

end Declaration
end ClassLineage
