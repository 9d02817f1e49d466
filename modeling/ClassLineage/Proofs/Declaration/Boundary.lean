import ClassLineage.Proofs.Declaration.Extent
import ClassLineage.Proofs.Import.Boundary

/-!
# Declarations up to the end of a statement

The phases of reading a declaration stop where a statement ends, as the readers of imports do:
short names, lists of names and headers stop at its semicolon, and a body ends with a brace
before it where the braces match.  So a file that is put together from two files, the first of
which ends with a semicolon and has braces that match, has the declarations of both, if the
second one starts with its own namespace.

## Main definitions

* `Outline.startsNamespace` — the tokens start with the declaration of a namespace.

## Main results

* `EndsStatement.readHeader_append`, `EndsStatement.readBody_append` — headers and bodies stop
  where a statement ends.
* `Outline.readFrom_append` — **what follows is read on its own,** but for the namespace.
* `Declaration.scanWith_append` — **two files make the imports and the declarations of both.**
-/

namespace ClassLineage

open Token Outline

namespace Outline

/-- A token that ends a statement is no modifier. -/
theorem isModifier_of_isSemicolon {t : Token} (h : t.isSemicolon = true) :
    isModifier t = false := by
  rw [isModifier, isTrivia_of_isSemicolon h, isKeyword_of_isSymbol h, isKeyword_of_isSymbol h]
  rfl

/-- A token that ends a statement declares nothing. -/
theorem isSemicolon_of_ofToken? {t : Token} {kind : DeclarationKind}
    (h : DeclarationKind.ofToken? t = some kind) : ¬t.isSemicolon = true := by
  intro hs
  rw [DeclarationKind.ofToken?, isKeyword_of_isSymbol hs, isKeyword_of_isSymbol hs] at h
  exact Option.some_ne_none kind h.symm

theorem isNamePart_of_isShortName {t : Token} (h : isShortName t = true) :
    t.isNamePart = true := by
  rw [isShortName, Bool.and_eq_true] at h
  rw [isNamePart, h.1, Bool.true_or]

theorem endsTraits_of_isSemicolon {t : Token} (h : t.isSemicolon = true) :
    endsTraits t = true := by
  rw [endsTraits, isTrivia_of_isSemicolon h, h, Bool.or_true]
  rfl

end Outline

/-! ### Where the phases stop -/

namespace Token
namespace EndsStatement

variable {ts : List Token}

theorem readShortName_append (h : EndsStatement ts) (us : List Token) :
    readShortName (ts ++ us) = ((readShortName ts).1, (readShortName ts).2 ++ us) ∧
      EndsStatement (readShortName ts).2 := by
  have hleft : EndsStatement (ts.dropWhile isModifier) :=
    h.dropWhile fun _ => isModifier_of_isSemicolon
  obtain ⟨t, rest, hs⟩ := List.exists_cons_of_ne_nil hleft.ne_nil
  rw [hs] at hleft
  rw [readShortName, readShortName, h.dropWhile_append fun _ => isModifier_of_isSemicolon, hs,
    List.cons_append]
  dsimp only
  by_cases hn : isShortName t = true
  · rw [if_pos hn, if_pos hn]
    exact ⟨rfl, hleft.tail_of_isNamePart (isNamePart_of_isShortName hn)⟩
  · rw [if_neg hn, if_neg hn, List.cons_append]
    exact ⟨rfl, hleft⟩

/-- A list of names that a semicolon ends stops where a statement ends, before its semicolon. -/
theorem readNames_append {ends : Token → Bool} (h : EndsStatement ts)
    (hends : ∀ t : Token, t.isSemicolon = true → ends t = true) (us : List Token) :
    readNames ends (ts ++ us) = ((readNames ends ts).1, (readNames ends ts).2 ++ us) ∧
      EndsStatement (readNames ends ts).2 := by
  fun_induction readNames ends ts with
  | case1 => exact absurd rfl h.ne_nil
  | case2 t rest he =>
    rw [List.cons_append, readNames_of_ends he]
    exact ⟨rfl, h⟩
  | case3 t rest he hb ih =>
    rw [List.cons_append, readNames_of_between (Bool.not_eq_true _ ▸ he) hb]
    exact ih (h.tail fun hs => he (hends t hs))
  | case4 t rest he hb after hn =>
    obtain ⟨hn', hrest⟩ := h.of_collectName hn us
    rw [List.cons_append] at hn'
    rw [Bool.not_eq_true] at he hb
    rw [List.cons_append, readNames_of_none he hb hn']
    exact ⟨rfl, hrest⟩
  | case5 t rest he hb name after hn _ more ih =>
    obtain ⟨hn', hrest⟩ := h.of_collectName hn us
    rw [List.cons_append] at hn'
    rw [Bool.not_eq_true] at he hb
    obtain ⟨hmore, hleft⟩ := ih hrest
    rw [List.cons_append, readNames_of_some he hb hn', hmore]
    exact ⟨rfl, hleft⟩

/-- **A header stops where a statement ends.** -/
theorem readHeader_append (h : EndsStatement ts) (parent : Option String)
    (interfaces : List String) (us : List Token) :
    readHeader parent interfaces (ts ++ us)
      = { readHeader parent interfaces ts with
          rest := (readHeader parent interfaces ts).rest ++ us } := by
  fun_induction readHeader parent interfaces ts with
  | case1 => exact absurd rfl h.ne_nil
  | case2 p is t ts ho => rw [List.cons_append, readHeader, if_pos ho]
  | case3 p is t ts ho hs => rw [List.cons_append, readHeader, if_neg ho, if_pos hs]
  | case4 p is t ts ho hs he _ ih =>
    have hends := h.tail hs
    rw [List.cons_append, readHeader, if_neg ho, if_neg hs, if_pos he, hends.collectName_append]
    exact ih hends.collectName_rest
  | case5 p is t ts ho hs he hi _ list ih =>
    obtain ⟨hlist, hrest⟩ := (h.tail hs).readNames_append
      (fun _ => endsInterfaces_of_isSemicolon) us
    rw [List.cons_append, readHeader, if_neg ho, if_neg hs, if_neg he, if_pos hi, hlist]
    exact ih hrest
  | case6 p is t ts ho hs he hi ih =>
    rw [List.cons_append, readHeader, if_neg ho, if_neg hs, if_neg he, if_neg hi]
    exact ih (h.tail hs)

/-- **A statement that uses traits stops where a statement ends,** or with the block that adapts
the traits. -/
theorem readTraitUse_append (h : EndsStatement ts) {depth : Nat} (hb : BracesMatch depth ts)
    (us : List Token) :
    readTraitUse (ts ++ us) = ((readTraitUse ts).1, (readTraitUse ts).2 ++ us) := by
  obtain ⟨hlist, hleft⟩ := h.readNames_append (fun _ => endsTraits_of_isSemicolon) us
  obtain ⟨t, rest, hs⟩ := List.exists_cons_of_ne_nil hleft.ne_nil
  simp only [readTraitUse, hlist, hs, List.cons_append]
  by_cases hsemi : t.isSemicolon = true
  · rw [if_pos hsemi, if_pos hsemi]
  by_cases ho : t.opensBlock = true
  · obtain ⟨opened, hopened⟩ := hb.of_suffix (hs ▸ readNames_suffix endsTraits ts)
    have hskip := (hopened.tail_of_opensBlock ho).skipBalanced_append (Nat.le_add_left 1 opened) us
    rw [if_neg hsemi, if_neg hsemi, if_pos ho, if_pos ho, skipBalanced, if_pos ho, skipBalanced,
      if_pos ho, hskip.1]
  · rw [if_neg hsemi, if_neg hsemi, if_neg ho, if_neg ho, List.cons_append]

end EndsStatement

/-! ### What the phases leave open -/

/-- A list of names takes commas, pieces of names and trivia. -/
theorem LeavesOpen.readNames (ends : Token → Bool) (ts : List Token) :
    LeavesOpen ts (readNames ends ts).2 := by
  obtain ⟨taken, hsplit, htaken⟩ := readNames_taken ends ts
  refine ⟨taken, hsplit, fun t ht => ?_⟩
  rcases Bool.or_eq_true_iff.mp (htaken t ht) with hcomma | hin
  · exact closesBlock_of_isComma hcomma
  · exact isSymbol_of_isInName hin _

/-- **What was open before the use of traits is open after it:** the block that adapts the traits
closes what it opens. -/
theorem KeepsOpen.readTraitUse (ts : List Token) : KeepsOpen ts (readTraitUse ts).2 := by
  have hlist := (LeavesOpen.readNames endsTraits ts).keepsOpen
  rw [Outline.readTraitUse]
  cases hs : (readNames endsTraits ts).2 with
  | nil =>
    rw [hs] at hlist
    simpa only [hs] using hlist
  | cons t rest =>
    rw [hs] at hlist
    dsimp only
    by_cases hsemi : t.isSemicolon = true
    · rw [if_pos hsemi]
      exact hlist.trans (LeavesOpen.cons (closesBlock_of_isSemicolon hsemi) rest).keepsOpen
    by_cases ho : t.opensBlock = true
    · rw [if_neg hsemi, if_pos ho, skipBalanced, if_pos ho]
      refine hlist.trans fun depth hb => ?_
      have hskip := (hb.tail_of_opensBlock ho).skipBalanced_append (Nat.le_add_left 1 depth) []
      exact ⟨depth, le_rfl, hskip.2⟩
    · rw [if_neg hsemi, if_neg ho]
      exact hlist

/-- **A body ends before a statement does,** where the braces match and no more blocks are
counted than are open. -/
theorem EndsStatement.readBody_append {ts : List Token} (h : ts = [] ∨ EndsStatement ts)
    {depth : Nat} (hpos : 1 ≤ depth) (hb : ∃ opened, depth ≤ opened ∧ BracesMatch opened ts)
    (us : List Token) :
    readBody depth (ts ++ us) = ((readBody depth ts).1, (readBody depth ts).2 ++ us) := by
  fun_induction readBody depth ts with
  | case1 depth =>
    obtain ⟨opened, hdepth, hmatch⟩ := hb
    have := hmatch.eq_zero
    omega
  | case2 depth t ts ho ih =>
    obtain ⟨opened, hdepth, hmatch⟩ := hb
    have hends := h.resolve_left (List.cons_ne_nil t ts)
    rw [List.cons_append, readBody, if_pos ho]
    exact ih (hends.suffix_cases (List.suffix_cons t ts)) (by omega)
      ⟨opened + 1, by omega, hmatch.tail_of_opensBlock ho⟩
  | case3 depth t ts ho hc hlast =>
    rw [List.cons_append, readBody, if_neg ho, if_pos hc, if_pos hlast]
  | case4 depth t ts ho hc hlast ih =>
    obtain ⟨opened, hdepth, hmatch⟩ := hb
    have hends := h.resolve_left (List.cons_ne_nil t ts)
    rw [List.cons_append, readBody, if_neg ho, if_pos hc, if_neg hlast]
    exact ih (hends.suffix_cases (List.suffix_cons t ts)) (by omega)
      ⟨opened - 1, by omega, (hmatch.tail_of_closesBlock hc).2⟩
  | case5 depth t ts ho hc hu _ used more ih =>
    obtain ⟨opened, hdepth, hmatch⟩ := hb
    have hends := (h.resolve_left (List.cons_ne_nil t ts)).tail_of_isKeyword hu.2
    have hplain := hmatch.tail_of_plain (Bool.not_eq_true _ ▸ ho) (Bool.not_eq_true _ ▸ hc)
    obtain ⟨deeper, hdeeper, hleft⟩ := KeepsOpen.readTraitUse ts opened hplain
    have hmore := ih (hends.suffix_cases (readTraitUse_suffix ts)) hpos
      ⟨deeper, by omega, hleft⟩
    rw [List.cons_append, readBody, if_neg ho, if_neg hc, if_pos hu,
      hends.readTraitUse_append hplain]
    show (used.1 ++ (readBody depth (used.2 ++ us)).1, (readBody depth (used.2 ++ us)).2) = _
    rw [hmore]
  | case6 depth t ts ho hc hu ih =>
    obtain ⟨opened, hdepth, hmatch⟩ := hb
    have hends := h.resolve_left (List.cons_ne_nil t ts)
    rw [List.cons_append, readBody, if_neg ho, if_neg hc, if_neg hu]
    exact ih (hends.suffix_cases (List.suffix_cons t ts)) hpos
      ⟨opened, hdepth, hmatch.tail_of_plain (Bool.not_eq_true _ ▸ ho) (Bool.not_eq_true _ ▸ hc)⟩

/-- Where a body follows a header, the last token of the header opens it. -/
theorem exists_opensBlock_of_hasBody {parent : Option String} {interfaces : List String}
    {ts : List Token} (h : (readHeader parent interfaces ts).hasBody = true) :
    ∃ o, o.opensBlock = true ∧ o :: (readHeader parent interfaces ts).rest <:+ ts := by
  have hstep : ∀ {t : Token} {ts us rest : List Token}, us <:+ ts →
      (∃ o : Token, o.opensBlock = true ∧ o :: rest <:+ us) →
        ∃ o : Token, o.opensBlock = true ∧ o :: rest <:+ t :: ts := by
    rintro t ts us rest hs ⟨o, ho, hrest⟩
    exact ⟨o, ho, (hrest.trans hs).trans (List.suffix_cons t ts)⟩
  fun_induction readHeader parent interfaces ts with
  | case1 => exact absurd h Bool.false_ne_true
  | case2 p is t ts ho => exact ⟨t, ho, List.suffix_rfl⟩
  | case3 => exact absurd h Bool.false_ne_true
  | case4 p is t ts ho hs he _ ih => exact hstep (collectName_suffix ts) (ih h)
  | case5 p is t ts ho hs he hi _ list ih =>
    exact hstep (readNames_suffix endsInterfaces ts) (ih h)
  | case6 p is t ts ho hs he hi ih => exact hstep List.suffix_rfl (ih h)

/-- **A declaration ends where a statement ends,** or before. -/
theorem EndsStatement.readOutline_append {ts : List Token} (h : EndsStatement ts) {depth : Nat}
    (hb : BracesMatch depth ts) (kind : DeclarationKind) (space shortName : String)
    (us : List Token) :
    readOutline kind space shortName (ts ++ us)
      = ((readOutline kind space shortName ts).1,
          (readOutline kind space shortName ts).2 ++ us) := by
  have htraits : readTraits kind { readHeader none [] ts with
        rest := (readHeader none [] ts).rest ++ us }
      = ((readTraits kind (readHeader none [] ts)).1,
          (readTraits kind (readHeader none [] ts)).2 ++ us) := by
    rw [readTraits, readTraits]
    by_cases hbody : kind = .classKind ∧ (readHeader none [] ts).hasBody = true
    · obtain ⟨o, ho, hsuffix⟩ := exists_opensBlock_of_hasBody hbody.2
      obtain ⟨outer, houter⟩ := hb.of_suffix hsuffix
      rw [if_pos hbody, if_pos hbody]
      exact readBody_append (h.suffix_cases (readHeader_suffix none [] ts)) le_rfl
        ⟨outer + 1, by omega, houter.tail_of_opensBlock ho⟩ us
    · rw [if_neg hbody, if_neg hbody]
  simp only [readOutline, h.readHeader_append, htraits]

end Token

/-! ### Files -/

namespace Outline

/-- The tokens start with the declaration of a namespace, trivia apart. -/
def startsNamespace (ts : List Token) : Bool :=
  match skipTrivia ts with
  | [] => false
  | t :: rest => t.isKeyword .namespaceWord && !NamespaceHead.isRelative rest

/-- **What follows is read on its own,** in the namespace that the file has come to, where the
braces match and a statement ends. -/
theorem readFrom_append {ts : List Token} (h : ts = [] ∨ EndsStatement ts)
    (hb : ∃ depth, BracesMatch depth ts) (space : String) (us : List Token) :
    ∃ current, readFrom space (ts ++ us) = readFrom space ts ++ readFrom current us := by
  have hleft : ∀ {ts rest : List Token}, (∃ depth, BracesMatch depth ts) → rest <:+ ts →
      ∃ depth, BracesMatch depth rest := fun ⟨_, hb⟩ hs => hb.of_suffix hs
  fun_induction readFrom space ts with
  | case1 space => exact ⟨space, rfl⟩
  | case2 space t ts hn _ ih =>
    have hends := (h.resolve_left (List.cons_ne_nil t ts)).tail_of_isKeyword hn
    have hs := NamespaceHead.read_suffix ts
    obtain ⟨current, hrest⟩ :=
      ih (hends.suffix_cases hs) (hleft hb (hs.trans (List.suffix_cons t ts)))
    refine ⟨current, ?_⟩
    rw [List.cons_append, readFrom, if_pos hn, hends.read_append]
    exact hrest
  | case3 space t ts hn hk ih =>
    have hends := h.resolve_left (List.cons_ne_nil t ts)
    have hs := List.suffix_cons t ts
    obtain ⟨current, hrest⟩ := ih (hends.suffix_cases hs) (hleft hb hs)
    refine ⟨current, ?_⟩
    rw [List.cons_append, readFrom, if_neg hn, hk]
    exact hrest
  | case4 space t ts hn kind hk _ hname ih =>
    have hends := (h.resolve_left (List.cons_ne_nil t ts)).tail (isSemicolon_of_ofToken? hk)
    obtain ⟨hshort, hafter⟩ := hends.readShortName_append us
    obtain ⟨current, hrest⟩ := ih (Or.inr hafter)
      (hleft hb ((readShortName_suffix ts).trans (List.suffix_cons t ts)))
    refine ⟨current, ?_⟩
    rw [List.cons_append, readFrom, if_neg hn, hk]
    simp only [hshort, hname]
    exact hrest
  | case5 space t ts hn kind hk _ shortName hname _ ih =>
    have hends := (h.resolve_left (List.cons_ne_nil t ts)).tail (isSemicolon_of_ofToken? hk)
    obtain ⟨hshort, hafter⟩ := hends.readShortName_append us
    obtain ⟨depth, hopened⟩ := hleft hb ((readShortName_suffix ts).trans (List.suffix_cons t ts))
    have hs := readOutline_suffix kind space shortName (readShortName ts).2
    obtain ⟨current, hrest⟩ := ih (hafter.suffix_cases hs) (hleft ⟨depth, hopened⟩ hs)
    refine ⟨current, ?_⟩
    rw [List.cons_append, readFrom, if_neg hn, hk]
    simp only [hshort, hname, hafter.readOutline_append hopened, hrest, List.cons_append]

/-- A file that starts with its own namespace is read alike in every namespace. -/
theorem readFrom_of_startsNamespace {us : List Token} (h : startsNamespace us = true)
    (space other : String) : readFrom space us = readFrom other us := by
  have hskip : ∀ space, readFrom space us = readFrom space (skipTrivia us) := fun space =>
    (readFrom_dropWhile (fun _ => isModifier_of_isTrivia) space us).symm
  rw [hskip, hskip other]
  rw [startsNamespace] at h
  cases hs : skipTrivia us with
  | nil =>
    rw [hs] at h
    exact absurd h Bool.false_ne_true
  | cons t rest =>
    rw [hs] at h
    obtain ⟨hword, hrel⟩ := (Bool.and_eq_true _ _).mp h
    rw [Bool.not_eq_true'] at hrel
    have hread : (NamespaceHead.read rest).declared
        = some (Name.trimSeparators ((collectName rest).1.getD "")) := by
      rw [NamespaceHead.read, hrel, if_neg Bool.false_ne_true]
    rw [readFrom, if_pos hword, readFrom, if_pos hword, hread, Option.getD_some, Option.getD_some]

end Outline

namespace Declaration

/-- **Two files make the imports and the declarations of both.**  Whatever the tokens before a
semicolon are, as long as their braces match, the imports of what follows it replace those that
the tokens have set before; and if a namespace is declared there first, the declarations of both
parts follow each other. -/
theorem scanWith_append {before after : List Token} {stop : Token} (hb : BracesMatch 0 before)
    (hs : stop.isSemicolon = true) :
    ImportTable.ofTokens (before ++ [stop] ++ after)
        = (ImportTable.ofTokens after).putAll (ImportTable.ofTokens (before ++ [stop])) ∧
      (startsNamespace after = true → ∀ imports path,
        scanWith imports path (before ++ [stop] ++ after)
          = scanWith imports path (before ++ [stop]) ++ scanWith imports path after) := by
  have hends : EndsStatement (before ++ [stop]) := EndsStatement.concat before hs
  have hmatch : BracesMatch 0 (before ++ [stop]) :=
    hb.concat (opensBlock_of_isSemicolon hs) (closesBlock_of_isSemicolon hs)
  refine ⟨ImportTable.ofTokens_append hends hmatch after, fun hstart imports path => ?_⟩
  obtain ⟨current, hread⟩ := readFrom_append (Or.inr hends) ⟨0, hmatch⟩ "" after
  rw [readFrom_of_startsNamespace hstart current ""] at hread
  rw [scanWith, readAll, hread, List.map_append]
  rfl

/-- A group that a semicolon ends before its brace, a class with an unfinished list of interfaces
and with traits that are adapted, and the header of an interface that nothing follows. -/
def brokenPart : List Token :=
  [⟨.keyword .useWord, "use", 1⟩, ⟨.name, "Lib", 1⟩, ⟨.symbol, "\x7b", 1⟩, ⟨.name, "One", 1⟩,
    ⟨.keyword .asWord, "as", 1⟩, ⟨.symbol, ";", 1⟩, ⟨.symbol, "\x7d", 1⟩,
    ⟨.keyword .classWord, "class", 2⟩, ⟨.name, "Shop", 2⟩,
    ⟨.keyword .implementsWord, "implements", 2⟩, ⟨.name, "One", 2⟩, ⟨.symbol, ",", 2⟩,
    ⟨.symbol, "\x7b", 2⟩, ⟨.keyword .useWord, "use", 3⟩, ⟨.name, "Prices", 3⟩,
    ⟨.symbol, "\x7b", 3⟩, ⟨.keyword .useWord, "use", 3⟩, ⟨.symbol, "\x7d", 3⟩,
    ⟨.symbol, "\x7d", 4⟩, ⟨.keyword .interfaceWord, "interface", 5⟩, ⟨.name, "Sold", 5⟩,
    ⟨.keyword .extendsWord, "extends", 5⟩]

/-- A part of a file with its own namespace, and with a class that is not closed. -/
def ownPart : List Token :=
  [⟨.comment, "// prices", 6⟩, ⟨.keyword .namespaceWord, "namespace", 7⟩, ⟨.name, "Web", 7⟩,
    ⟨.symbol, ";", 7⟩, ⟨.keyword .useWord, "use", 8⟩, ⟨.name, "One", 8⟩, ⟨.symbol, ",", 8⟩,
    ⟨.keyword .classWord, "class", 9⟩, ⟨.name, "Page", 9⟩, ⟨.keyword .extendsWord, "extends", 9⟩,
    ⟨.name, "One", 9⟩, ⟨.symbol, "\x7b", 9⟩]

theorem scanWith_append_broken :
    BracesMatch 0 brokenPart ∧ isSemicolon ⟨.symbol, ";", 5⟩ = true ∧
      startsNamespace ownPart = true ∧
      ImportTable.ofTokens (brokenPart ++ [⟨.symbol, ";", 5⟩]) = [("One", "Lib\\One")] ∧
      ImportTable.ofTokens (brokenPart ++ [⟨.symbol, ";", 5⟩] ++ ownPart) = [("One", "One")] ∧
      ImportTable.ofTokens (brokenPart ++ [⟨.symbol, ";", 5⟩] ++ ownPart)
        = (ImportTable.ofTokens ownPart).putAll
            (ImportTable.ofTokens (brokenPart ++ [⟨.symbol, ";", 5⟩])) ∧
      (scanWith [] "Shop.php" (brokenPart ++ [⟨.symbol, ";", 5⟩])).map (·.name)
        = ["Shop", "Sold"] ∧
      scanWith [] "Shop.php" (brokenPart ++ [⟨.symbol, ";", 5⟩] ++ ownPart)
        = scanWith [] "Shop.php" (brokenPart ++ [⟨.symbol, ";", 5⟩])
          ++ scanWith [] "Shop.php" ownPart := by
  have hb : BracesMatch 0 brokenPart := by decide
  have hs : isSemicolon ⟨.symbol, ";", 5⟩ = true := by decide
  have hstart : startsNamespace ownPart = true := by decide
  have hboth := @scanWith_append brokenPart ownPart _ hb hs
  exact ⟨hb, hs, hstart, by decide +kernel, by decide +kernel, hboth.1, by decide +kernel,
    hboth.2 hstart [] "Shop.php"⟩

end Declaration
end ClassLineage
