import ClassLineage.Proofs.Declaration.Reference
import ClassLineage.Proofs.Import.Case
import ClassLineage.Search

/-!
# Declarations in another case

A file may be recased: its names written with other cases of their ASCII letters.  It declares
the same then, outline by outline, but for the case of names; and the full names that its
references stand for are the same but for their case, as far as the references are exact: each
is written in the case of the aliases that it meets.  For the alias table is kept by spelling, so
that an alias in another case is not found, and two aliases that differ in case are two.

## Main definitions

* `Outline.IsExactIn` — the references of an outline meet aliases in their own case alone.
* `Outline.AgreesRecased` — two records of recased outlines agree in all that is exact.
* `Declaration.IsSameInAnyCase` — two records have the same normal forms.

## Main results

* `Outline.readAll_foldCase` — the outlines of the folded tokens are those of the tokens, folded.
* `Declaration.scan_recased` — **recased files give the same records as far as references are
  exact,** and a search selects the same of them if all are.
* `Declaration.not_isSameInAnyCase_recased` — a reference in another case than its alias is not
  found.
-/

namespace ClassLineage

open Token

/-- The header, its names and the tokens left folded. -/
def Header.foldCase (h : Header) : Header where
  parent := h.parent.map Text.foldCase
  interfaces := h.interfaces.map Text.foldCase
  hasBody := h.hasBody
  rest := h.rest.map Token.foldCase

namespace Outline

/-- The outline, its names folded. -/
def foldCase (o : Outline) : Outline where
  kind := o.kind
  shortName := Text.foldCase o.shortName
  space := Text.foldCase o.space
  parent := o.parent.map Text.foldCase
  interfaces := o.interfaces.map Text.foldCase
  traits := o.traits.map Text.foldCase

/-! ### Readers -/

theorem isModifier_foldCase (t : Token) : isModifier t.foldCase = isModifier t := rfl

theorem isShortName_foldCase (t : Token) : isShortName t.foldCase = isShortName t := by
  rw [isShortName, isShortName, kind_foldCase]
  by_cases hk : t.kind = .name
  · rw [text_foldCase_of_name hk, Text.toList_foldCase, List.any_map]
    exact congrArg (fun p => _ && !List.any _ p) (funext Name.isSeparator_toLower)
  · rw [beq_eq_false_iff_ne.mpr hk, Bool.false_and, Bool.false_and]

theorem readShortName_foldCase (ts : List Token) :
    readShortName (ts.map Token.foldCase)
      = ((readShortName ts).1.map Text.foldCase, (readShortName ts).2.map Token.foldCase) := by
  rw [readShortName, readShortName, Text.dropWhile_map_of_apply isModifier_foldCase]
  cases ts.dropWhile isModifier with
  | nil => rfl
  | cons t rest =>
    rw [List.map_cons]
    dsimp only
    rw [isShortName_foldCase]
    by_cases hn : isShortName t = true
    · have hk : t.kind = .name := by
        rw [isShortName, Bool.and_eq_true, beq_iff_eq] at hn
        exact hn.1
      rw [if_pos hn, if_pos hn, text_foldCase_of_name hk]
      rfl
    · rw [if_neg hn, if_neg hn]
      rfl

theorem reference?_foldCase (name : Option String) :
    reference? (name.map Text.foldCase) = (reference? name).map Text.foldCase := by
  rw [reference?, reference?, Option.filter_map]
  exact congrArg (fun p => (name.filter p).map Text.foldCase) (funext Name.hasSubstance_foldCase)

theorem readNames_foldCase {ends : Token → Bool} (hends : ∀ t : Token, ends t.foldCase = ends t)
    (ts : List Token) :
    readNames ends (ts.map Token.foldCase)
      = ((readNames ends ts).1.map Text.foldCase, (readNames ends ts).2.map Token.foldCase) := by
  have hbetween : ∀ t : Token, (t.foldCase.isComma || t.foldCase.isTrivia)
      = (t.isComma || t.isTrivia) := fun t => by rw [isComma_foldCase, isTrivia_foldCase]
  fun_induction readNames ends ts with
  | case1 => rw [List.map_nil, readNames_nil]; rfl
  | case2 t rest h =>
    rw [List.map_cons, readNames_of_ends ((hends t).trans h)]
    rfl
  | case3 t rest h hb ih =>
    rw [List.map_cons, readNames_of_between
      ((hends t).trans (Bool.eq_false_iff.mpr h)) ((hbetween t).trans hb), ih]
  | case4 t rest h hb after hc =>
    rw [Bool.not_eq_true] at h hb
    have hc' := collectName_foldCase (t :: rest)
    rw [hc] at hc'
    rw [List.map_cons, readNames_of_none ((hends t).trans h) ((hbetween t).trans hb) hc']
    rfl
  | case5 t rest h hb name after hc _ more ih =>
    rw [Bool.not_eq_true] at h hb
    have hc' := collectName_foldCase (t :: rest)
    rw [hc] at hc'
    rw [List.map_cons, readNames_of_some ((hends t).trans h) ((hbetween t).trans hb) hc', ih,
      ← Option.map_some, reference?_foldCase, Option.toList_map, List.map_append]

theorem endsInterfaces_foldCase (t : Token) : endsInterfaces t.foldCase = endsInterfaces t := by
  rw [endsInterfaces, endsInterfaces, opensBlock_foldCase, isSemicolon_foldCase]

theorem endsTraits_foldCase (t : Token) : endsTraits t.foldCase = endsTraits t := by
  rw [endsTraits, endsTraits, isTrivia_foldCase, opensBlock_foldCase, isSemicolon_foldCase]

theorem readHeader_foldCase (parent : Option String) (interfaces : List String)
    (ts : List Token) :
    readHeader (parent.map Text.foldCase) (interfaces.map Text.foldCase) (ts.map Token.foldCase)
      = (readHeader parent interfaces ts).foldCase := by
  fun_induction readHeader parent interfaces ts with
  | case1 => rw [List.map_nil, readHeader]; rfl
  | case2 parent interfaces t ts ho =>
    rw [List.map_cons, readHeader, opensBlock_foldCase, if_pos ho]
    rfl
  | case3 parent interfaces t ts ho hs =>
    rw [List.map_cons, readHeader, opensBlock_foldCase, if_neg ho, isSemicolon_foldCase, if_pos hs]
    rfl
  | case4 parent interfaces t ts ho hs he _ ih =>
    rw [List.map_cons, readHeader, opensBlock_foldCase, if_neg ho, isSemicolon_foldCase, if_neg hs,
      isKeyword_foldCase, if_pos he, collectName_foldCase]
    dsimp only
    rw [reference?_foldCase, ← Option.map_or, ih]
  | case5 parent interfaces t ts ho hs he hi _ list ih =>
    rw [List.map_cons, readHeader, opensBlock_foldCase, if_neg ho, isSemicolon_foldCase, if_neg hs,
      isKeyword_foldCase, if_neg he, isKeyword_foldCase, if_pos hi,
      readNames_foldCase endsInterfaces_foldCase]
    dsimp only
    rw [← List.map_append, ih]
  | case6 parent interfaces t ts ho hs he hi ih =>
    rw [List.map_cons, readHeader, opensBlock_foldCase, if_neg ho, isSemicolon_foldCase, if_neg hs,
      isKeyword_foldCase, if_neg he, isKeyword_foldCase, if_neg hi, ih]

theorem readTraitUse_foldCase (ts : List Token) :
    readTraitUse (ts.map Token.foldCase)
      = ((readTraitUse ts).1.map Text.foldCase, (readTraitUse ts).2.map Token.foldCase) := by
  rw [readTraitUse, readTraitUse, readNames_foldCase endsTraits_foldCase]
  dsimp only
  cases (readNames endsTraits ts).2 with
  | nil => rfl
  | cons t rest =>
    rw [List.map_cons]
    dsimp only
    rw [isSemicolon_foldCase, opensBlock_foldCase, ← List.map_cons, skipBalanced_foldCase]
    split_ifs <;> rfl

theorem readBody_foldCase (depth : Nat) (ts : List Token) :
    readBody depth (ts.map Token.foldCase)
      = ((readBody depth ts).1.map Text.foldCase, (readBody depth ts).2.map Token.foldCase) := by
  fun_induction readBody depth ts with
  | case1 => rw [List.map_nil, readBody]; rfl
  | case2 depth t ts ho ih =>
    rw [List.map_cons, readBody, opensBlock_foldCase, if_pos ho, ih]
  | case3 depth t ts ho hc hd =>
    rw [List.map_cons, readBody, opensBlock_foldCase, if_neg ho, closesBlock_foldCase, if_pos hc,
      if_pos hd]
    rfl
  | case4 depth t ts ho hc hd ih =>
    rw [List.map_cons, readBody, opensBlock_foldCase, if_neg ho, closesBlock_foldCase, if_pos hc,
      if_neg hd, ih]
  | case5 depth t ts ho hc hu _ used more ih =>
    rw [List.map_cons, readBody, opensBlock_foldCase, if_neg ho, closesBlock_foldCase, if_neg hc,
      isKeyword_foldCase, if_pos hu, readTraitUse_foldCase]
    dsimp only
    rw [ih, List.map_append]
  | case6 depth t ts ho hc hu ih =>
    rw [List.map_cons, readBody, opensBlock_foldCase, if_neg ho, closesBlock_foldCase, if_neg hc,
      isKeyword_foldCase, if_neg hu, ih]

theorem readOutline_foldCase (kind : DeclarationKind) (space shortName : String)
    (ts : List Token) :
    readOutline kind (Text.foldCase space) (Text.foldCase shortName) (ts.map Token.foldCase)
      = ((readOutline kind space shortName ts).1.foldCase,
          (readOutline kind space shortName ts).2.map Token.foldCase) := by
  have hheader := readHeader_foldCase none [] ts
  have htraits : readTraits kind (readHeader none [] ts).foldCase
      = ((readTraits kind (readHeader none [] ts)).1.map Text.foldCase,
          (readTraits kind (readHeader none [] ts)).2.map Token.foldCase) := by
    rw [readTraits, readTraits]
    by_cases h : kind = .classKind ∧ (readHeader none [] ts).hasBody = true
    · rw [if_pos h]
      exact (if_pos h).trans (readBody_foldCase 1 _)
    · rw [if_neg h]
      exact if_neg h
  rw [Option.map_none, List.map_nil] at hheader
  rw [readOutline, readOutline, hheader, htraits]
  rfl

theorem ofToken?_foldCase (t : Token) :
    DeclarationKind.ofToken? t.foldCase = DeclarationKind.ofToken? t := rfl

theorem readFrom_foldCase (space : String) (ts : List Token) :
    readFrom (Text.foldCase space) (ts.map Token.foldCase) = (readFrom space ts).map foldCase := by
  fun_induction readFrom space ts with
  | case1 => rw [List.map_nil, readFrom]; rfl
  | case2 space t ts hn _ ih =>
    rw [List.map_cons, readFrom, isKeyword_foldCase, if_pos hn, NamespaceHead.read_foldCase, ← ih,
      NamespaceHead.foldCase]
    dsimp only
    rw [Option.getD_map]
  | case3 space t ts hn hk ih =>
    rw [List.map_cons, readFrom, isKeyword_foldCase, if_neg hn, ofToken?_foldCase, hk]
    exact ih
  | case4 space t ts hn kind hk _ hname ih =>
    rw [List.map_cons, readFrom, isKeyword_foldCase, if_neg hn, ofToken?_foldCase, hk]
    dsimp only
    rw [readShortName_foldCase, hname]
    exact ih
  | case5 space t ts hn kind hk _ shortName hname _ ih =>
    rw [List.map_cons, readFrom, isKeyword_foldCase, if_neg hn, ofToken?_foldCase, hk]
    dsimp only
    rw [readShortName_foldCase, hname]
    dsimp only [Option.map_some]
    rw [readOutline_foldCase, ih]
    rfl

/-- **The outlines of the folded tokens are those of the tokens, folded.** -/
theorem readAll_foldCase (ts : List Token) :
    readAll (ts.map Token.foldCase) = (readAll ts).map foldCase := readFrom_foldCase "" ts

theorem readAll_recased {ts us : List Token} (h : List.Forall₂ IsRecasing ts us) :
    List.Forall₂ (fun o o' : Outline => o'.foldCase = o.foldCase) (readAll ts) (readAll us) := by
  have heq : (readAll us).map foldCase = (readAll ts).map foldCase := by
    rw [← readAll_foldCase, ← readAll_foldCase, map_foldCase_eq h]
  rw [← List.forall₂_eq_eq_eq, List.forall₂_map_left_iff, List.forall₂_map_right_iff] at heq
  exact heq.flip

/-! ### Records -/

/-- Each reference of the outline meets the aliases of the table in its own case alone. -/
def IsExactIn (imports : ImportTable) (o : Outline) : Prop :=
  ∀ r, ∀ name ∈ o.written r, imports.IsExactFor (Name.firstSegment name)

instance (imports : ImportTable) (o : Outline) : Decidable (o.IsExactIn imports) :=
  decidable_of_iff (∀ r ∈ Relation.all, ∀ name ∈ o.written r,
      imports.IsExactFor (Name.firstSegment name))
    ⟨fun h r => h r (by cases r <;> decide), fun h r _ => h r⟩

theorem written_foldCase (o : Outline) (r : Relation) :
    o.foldCase.written r = (o.written r).map Text.foldCase := by
  cases r with
  | extending => exact Option.toList_map
  | implementing => rfl
  | usingTrait => rfl

/-- An outline with its record in a file that has the imports `imports`, and an outline with its
record in a file that has the imports `imports'`, agree in all that is exact. -/
structure AgreesRecased (imports imports' : ImportTable) (p p' : Outline × Declaration) :
    Prop where
  /-- The outlines are the same but for the case of names. -/
  outline : p'.1.foldCase = p.1.foldCase
  /-- The full names have one normal form. -/
  name : Name.normalize p'.2.name = Name.normalize p.2.name
  /-- The path is the same. -/
  path : p'.2.path = p.2.path
  /-- The namespaces have one normal form. -/
  space : Name.normalize p'.2.space = Name.normalize p.2.space
  /-- The short names have one normal form. -/
  shortName : Name.normalize p'.2.shortName = Name.normalize p.2.shortName
  /-- The kind is the same. -/
  kind : p'.2.kind = p.2.kind
  /-- Each reference of the outlines is one of the records. -/
  length : ∀ r, (p.2.related r).length = (p.1.written r).length ∧
    (p'.2.related r).length = (p.1.written r).length
  /-- References that are exact have one normal form. -/
  related : ∀ (r : Relation) (i : Nat) (name name' : String), (p.1.written r)[i]? = some name →
    (p'.1.written r)[i]? = some name' → imports.IsExactFor (Name.firstSegment name) →
    imports'.IsExactFor (Name.firstSegment name') →
    (p'.2.related r)[i]?.map Name.normalize = (p.2.related r)[i]?.map Name.normalize

section Records

variable {imports imports' folded : ImportTable} {path : String} {o o' : Outline}
  {d d' : Declaration}

/-- A reference of a record is that of its outline, resolved. -/
theorem IsRecordedAs.related_getElem? (h : o.IsRecordedAs imports path d) {r : Relation} {i : Nat}
    {name : String} (hi : (o.written r)[i]? = some name) :
    (d.related r)[i]? = Name.resolve imports o.space name := by
  have hr := congrArg (·[i]?) (h.related r)
  simp only [List.getElem?_map, hi, Option.map_some] at hr
  cases hd : (d.related r)[i]? with
  | none => simp [hd] at hr
  | some full => simpa [hd] using hr

/-- **Records of outlines that are the same but for case agree in all that is exact,** where the
tables of both files fold to one. -/
theorem IsRecordedAs.agreesRecased (hfolds : imports.Folds folded) (hfolds' : imports'.Folds folded)
    (ho : o'.foldCase = o.foldCase) (h : o.IsRecordedAs imports path d)
    (h' : o'.IsRecordedAs imports' path d') : AgreesRecased imports imports' (o, d) (o', d') where
  outline := ho
  name := by
    refine Name.normalize_eq_of_foldCase_eq ?_
    rw [h.name, h'.name, ← Name.qualify_foldCase, ← Name.qualify_foldCase]
    exact congrArg₂ Name.qualify (congrArg Outline.shortName ho) (congrArg Outline.space ho)
  path := h'.path.trans h.path.symm
  space := by
    rw [h.space, h'.space]
    exact Name.normalize_eq_of_foldCase_eq (congrArg Outline.space ho)
  shortName := by
    rw [h.shortName, h'.shortName]
    exact Name.normalize_eq_of_foldCase_eq (congrArg Outline.shortName ho)
  kind := by
    rw [h.kind, h'.kind]
    exact congrArg (·.kind.word) ho
  length := by
    intro r
    have hwritten := congrArg (fun o => (o.written r).length) ho
    have hr := congrArg List.length (h.related r)
    have hr' := congrArg List.length (h'.related r)
    simp only [written_foldCase, List.length_map] at hwritten hr hr'
    exact ⟨hr, hr'.trans hwritten⟩
  related := by
    intro r i name name' hi hi' hexact hexact'
    have hwritten := congrArg (fun o => (o.written r)[i]?) ho
    simp only [written_foldCase, List.getElem?_map] at hwritten
    rw [hi, hi', Option.map_some, Option.map_some, Option.some.injEq] at hwritten
    rw [h.related_getElem? hi, h'.related_getElem? hi']
    exact Name.normalize_resolve_eq hfolds hfolds' hwritten (congrArg Outline.space ho) hexact
      hexact'

/-- What follows for members of two lists holds pair by pair. -/
theorem forall₂_imp_of_mem {α β : Type} {R S : α → β → Prop} {l : List α} {l' : List β}
    (h : List.Forall₂ R l l') (himp : ∀ a ∈ l, ∀ b ∈ l', R a b → S a b) :
    List.Forall₂ S l l' := by
  induction h with
  | nil => exact .nil
  | cons hab _ ih =>
    exact .cons (himp _ List.mem_cons_self _ List.mem_cons_self hab)
      (ih fun a ha b hb => himp a (List.mem_cons_of_mem _ ha) b (List.mem_cons_of_mem _ hb))

/-- Recased files give records that agree in all that is exact. -/
theorem resolve_agreesRecased {ts us : List Token} (h : List.Forall₂ IsRecasing ts us)
    (path : String) :
    List.Forall₂ (fun o o' : Outline => AgreesRecased (.ofTokens ts) (.ofTokens us)
        (o, o.resolve (.ofTokens ts) path) (o', o'.resolve (.ofTokens us) path))
      (readAll ts) (readAll us) := by
  -- both tables fold to that of the folded tokens
  have hfolds := ImportTable.ofTokens_foldCase ts
  have hfolds' := ImportTable.ofTokens_foldCase us
  rw [map_foldCase_eq h] at hfolds'
  refine forall₂_imp_of_mem (readAll_recased h) fun o ho o' ho' heq => ?_
  have hrecord := (readFrom_hasSubstance "" ts o ho).isRecordedAs (.ofTokens ts) path
  have hrecord' := (readFrom_hasSubstance "" us o' ho').isRecordedAs (.ofTokens us) path
  exact hrecord.agreesRecased hfolds hfolds' heq hrecord'

/-- Records agree in all their references where all of these are exact. -/
theorem AgreesRecased.related_eq (h : AgreesRecased imports imports' (o, d) (o', d'))
    (hexact : o.IsExactIn imports) (hexact' : o'.IsExactIn imports') (r : Relation) :
    (d'.related r).map Name.normalize = (d.related r).map Name.normalize := by
  have hwritten : (o'.written r).length = (o.written r).length := by
    have heq := congrArg (fun o => (o.written r).length) h.outline
    simpa only [written_foldCase, List.length_map] using heq
  obtain ⟨hlen, hlen'⟩ := h.length r
  refine List.ext_getElem? fun i => ?_
  rw [List.getElem?_map, List.getElem?_map]
  by_cases hi : i < (o.written r).length
  · have hi' : i < (o'.written r).length := by omega
    exact h.related r i _ _ (List.getElem?_eq_getElem hi) (List.getElem?_eq_getElem hi')
      (hexact r _ (List.getElem_mem hi)) (hexact' r _ (List.getElem_mem hi'))
  · dsimp only at hlen hlen'
    rw [List.getElem?_eq_none (by omega), List.getElem?_eq_none (by omega)]

end Records

end Outline

open Outline

namespace Declaration

/-- The records are the same but for the case of the names in them. -/
structure IsSameInAnyCase (d d' : Declaration) : Prop where
  /-- The full names have one normal form. -/
  name : Name.normalize d'.name = Name.normalize d.name
  /-- The path is the same. -/
  path : d'.path = d.path
  /-- The namespaces have one normal form. -/
  space : Name.normalize d'.space = Name.normalize d.space
  /-- The short names have one normal form. -/
  shortName : Name.normalize d'.shortName = Name.normalize d.shortName
  /-- The kind is the same. -/
  kind : d'.kind = d.kind
  /-- The references have the same normal forms, in order. -/
  related : ∀ r, (d'.related r).map Name.normalize = (d.related r).map Name.normalize

/-- A search selects both records or none. -/
theorem IsSameInAnyCase.refersTo {d d' : Declaration} (h : d.IsSameInAnyCase d')
    (target : String) (r : Relation) :
    Search.refersTo target r d' = Search.refersTo target r d := by
  have hany : ∀ d : Declaration, Search.refersTo target r d
      = ((d.related r).map Name.normalize).any fun name => name = Name.normalize target := by
    intro d
    rw [Search.refersTo, List.any_map, Function.comp_def]
  rw [hany, hany, h.related r]

/-- A search selects the same of records that are the same but for case. -/
theorem map_refersTo_eq {ds ds' : List Declaration} (h : List.Forall₂ IsSameInAnyCase ds ds')
    (target : String) (r : Relation) :
    ds'.map (Search.refersTo target r) = ds.map (Search.refersTo target r) := by
  rw [← List.forall₂_eq_eq_eq, List.forall₂_map_left_iff, List.forall₂_map_right_iff]
  exact h.flip.imp fun d' d hd => hd.refersTo target r

/-- **Recased files give the same records as far as references are exact.**  Whatever the tokens
are, if others differ from them in the case of the ASCII letters of names alone, both give equally
many records, which agree pair by pair in all but the text of references, and in each reference
whose first segment meets, in both files, the aliases that it is in some case only as it is
written.  If all references do, the records are the same but for the case of names, and a search
for any name by any relation selects the same of them. -/
theorem scan_recased {ts us : List Token} (h : List.Forall₂ IsRecasing ts us) (path : String) :
    (scan path us).length = (scan path ts).length ∧
      List.Forall₂ (AgreesRecased (.ofTokens ts) (.ofTokens us))
        ((readAll ts).zip (scan path ts)) ((readAll us).zip (scan path us)) ∧
      ((∀ o ∈ readAll ts, o.IsExactIn (.ofTokens ts)) →
        (∀ o ∈ readAll us, o.IsExactIn (.ofTokens us)) →
        List.Forall₂ IsSameInAnyCase (scan path ts) (scan path us) ∧
          ∀ target relation, (scan path us).map (Search.refersTo target relation)
            = (scan path ts).map (Search.refersTo target relation)) := by
  have hagree := resolve_agreesRecased h path
  have hzip : ∀ (l : List Outline) (f : Outline → Declaration),
      l.zip (l.map f) = l.map fun o => (o, f o) := by
    intro l f
    have hmap := List.zip_map' (f := id) (g := f) (l := l)
    rwa [List.map_id] at hmap
  refine ⟨?_, ?_, fun hexact hexact' => ?_⟩
  · rw [scan, scanWith, scan, scanWith, List.length_map, List.length_map, hagree.length_eq]
  · rw [scan, scanWith, scan, scanWith, hzip, hzip, List.forall₂_map_left_iff,
      List.forall₂_map_right_iff]
    exact hagree
  · have hsame : List.Forall₂ IsSameInAnyCase (scan path ts) (scan path us) := by
      rw [scan, scanWith, scan, scanWith, List.forall₂_map_left_iff, List.forall₂_map_right_iff]
      refine forall₂_imp_of_mem hagree fun o ho o' ho' hpair => ?_
      exact ⟨hpair.name, hpair.path, hpair.space, hpair.shortName, hpair.kind,
        hpair.related_eq (hexact o ho) (hexact' o' ho')⟩
    exact ⟨hsame, map_refersTo_eq hsame⟩

/-- A class with a parent by an alias, and with interfaces and a trait by names of all sorts. -/
def shopFile : List Token :=
  [⟨.keyword .namespaceWord, "namespace", 1⟩, ⟨.name, "App", 1⟩, ⟨.symbol, ";", 1⟩,
    ⟨.keyword .useWord, "use", 2⟩, ⟨.name, "Lib", 2⟩, ⟨.separator, "\\", 2⟩, ⟨.name, "Base", 2⟩,
    ⟨.keyword .asWord, "as", 2⟩, ⟨.name, "B", 2⟩, ⟨.symbol, ",", 2⟩, ⟨.name, "Parts", 2⟩,
    ⟨.symbol, ";", 2⟩, ⟨.keyword .classWord, "class", 3⟩, ⟨.name, "Shop", 3⟩,
    ⟨.keyword .extendsWord, "extends", 3⟩, ⟨.name, "B", 3⟩,
    ⟨.keyword .implementsWord, "implements", 3⟩, ⟨.separator, "\\", 3⟩, ⟨.name, "Sold", 3⟩,
    ⟨.symbol, ",", 3⟩, ⟨.name, "Parts", 3⟩, ⟨.separator, "\\", 3⟩, ⟨.name, "Sign", 3⟩,
    ⟨.symbol, "\x7b", 3⟩, ⟨.keyword .useWord, "use", 4⟩, ⟨.name, "Tools", 4⟩, ⟨.symbol, ";", 4⟩,
    ⟨.symbol, "\x7d", 5⟩]

theorem scan_recased_shop :
    List.Forall₂ IsRecasing shopFile (shopFile.map Token.foldCase) ∧
      (∀ o ∈ readAll shopFile, o.IsExactIn (.ofTokens shopFile)) ∧
      (∀ o ∈ readAll (shopFile.map Token.foldCase),
        o.IsExactIn (.ofTokens (shopFile.map Token.foldCase))) ∧
      List.Forall₂ IsSameInAnyCase (scan "Shop.php" shopFile)
        (scan "Shop.php" (shopFile.map Token.foldCase)) ∧
      (scan "Shop.php" shopFile).map (Search.refersTo "\\LIB\\Base" .extending) = [true] ∧
      (scan "Shop.php" (shopFile.map Token.foldCase)).map
        (Search.refersTo "\\LIB\\Base" .extending) = [true] := by
  have hrecased : List.Forall₂ IsRecasing shopFile (shopFile.map Token.foldCase) := by
    rw [List.forall₂_map_right_iff, List.forall₂_same]
    decide +kernel
  have hexact : ∀ o ∈ readAll shopFile, o.IsExactIn (.ofTokens shopFile) := by decide +kernel
  have hexact' : ∀ o ∈ readAll (shopFile.map Token.foldCase),
      o.IsExactIn (.ofTokens (shopFile.map Token.foldCase)) := by decide +kernel
  obtain ⟨-, -, hsame⟩ := scan_recased hrecased "Shop.php"
  obtain ⟨hrecords, hfind⟩ := hsame hexact hexact'
  have hfound : (scan "Shop.php" shopFile).map (Search.refersTo "\\LIB\\Base" .extending)
      = [true] := by decide +kernel
  exact ⟨hrecased, hexact, hexact', hrecords, hfound, (hfind _ _).trans hfound⟩

/-- A class whose parent is written like an alias, in some case. -/
def aliasedFile (parent : String) : List Token :=
  [⟨.keyword .useWord, "use", 1⟩, ⟨.name, "A", 1⟩, ⟨.separator, "\\", 1⟩, ⟨.name, "B", 1⟩,
    ⟨.symbol, ";", 1⟩, ⟨.keyword .classWord, "class", 2⟩, ⟨.name, "C", 2⟩,
    ⟨.keyword .extendsWord, "extends", 2⟩, ⟨.name, parent, 2⟩, ⟨.symbol, "\x7b", 2⟩,
    ⟨.symbol, "\x7d", 2⟩]

/-- **A reference in another case than its alias is not found.** -/
theorem not_isSameInAnyCase_recased :
    List.Forall₂ IsRecasing (aliasedFile "B") (aliasedFile "b") ∧
      (scan "C.php" (aliasedFile "B")).map (·.parent) = [some "A\\B"] ∧
      (scan "C.php" (aliasedFile "b")).map (·.parent) = [some "b"] ∧
      ¬ List.Forall₂ IsSameInAnyCase (scan "C.php" (aliasedFile "B"))
        (scan "C.php" (aliasedFile "b")) ∧
      (scan "C.php" (aliasedFile "B")).map (Search.refersTo "A\\B" .extending) = [true] ∧
      (scan "C.php" (aliasedFile "b")).map (Search.refersTo "A\\B" .extending) = [false] := by
  have hfound : (scan "C.php" (aliasedFile "B")).map (Search.refersTo "A\\B" .extending)
      = [true] := by decide +kernel
  have hlost : (scan "C.php" (aliasedFile "b")).map (Search.refersTo "A\\B" .extending)
      = [false] := by decide +kernel
  refine ⟨by decide +kernel, by decide +kernel, by decide +kernel, fun hsame => ?_, hfound, hlost⟩
  have hselected := map_refersTo_eq hsame "A\\B" .extending
  rw [hfound, hlost] at hselected
  exact absurd hselected (by decide)

end Declaration
end ClassLineage
