import ClassLineage.Proofs.Declaration.Grammar
import ClassLineage.Proofs.Name.Resolve

/-!
# References and the imports they are resolved by

Where names stand in a file is decided before any of them is resolved.  So whatever a file
imports, it declares the same, and each declaration refers to as many names: every name that
is kept is written by a run of tokens and holds more than separators, and such a name is
resolved under any imports.  Imports change only the text that a reference becomes, and only
that of a reference whose first segment they know.

## Main definitions

* `Outline.written` — the names that an outline refers to in one way, as written.
* `Outline.IsReferenceIn` — a name that tokens write, and that holds more than separators.
* `Outline.AgreesUnder` — two records of an outline differ in nothing but what two tables of
  imports make of its references.

## Main results

* `Outline.readFrom_isReferenceIn` — every name of an outline is written in the file.
* `Declaration.scanWith_isRecordedAs` — every outline of any tokens is recorded, with all its
  names.
* `Declaration.scanWith_agreesUnder` — **imports change nothing but the text of references.**
-/

namespace ClassLineage

open Token

namespace Outline

/-! ### References -/

/-- The names that the outline refers to by a relation, as written. -/
def written (o : Outline) : Relation → List String
  | .extending => o.parent.toList
  | .implementing => o.interfaces
  | .usingTrait => o.traits

/-- The tokens write the name, and it holds more than separators. -/
structure IsReferenceIn (ts : List Token) (name : String) : Prop where
  /-- A run of the tokens writes the name by its parts, with nothing but trivia among them. -/
  run : ∃ run, run <:+: ts ∧ (∀ t ∈ run, t.isInName = true) ∧ nameText run = some name
  /-- The name holds more than separators. -/
  substance : Name.hasSubstance name = true

theorem IsReferenceIn.of_suffix {ts us : List Token} {name : String}
    (h : IsReferenceIn us name) (hs : us <:+ ts) : IsReferenceIn ts name := by
  obtain ⟨run, hrun, hin, htext⟩ := h.run
  exact ⟨⟨run, hrun.trans hs.isInfix, hin, htext⟩, h.substance⟩

theorem hasSubstance_of_reference? {given : Option String} {name : String}
    (h : reference? given = some name) : given = some name ∧ Name.hasSubstance name = true := by
  rwa [reference?, Option.filter_eq_some_iff] at h

/-- A name that is collected, and refers to something, is written where it is collected. -/
theorem isReferenceIn_collectName {ts : List Token} {name : String}
    (h : reference? (collectName ts).1 = some name) : IsReferenceIn ts name := by
  obtain ⟨hname, hsub⟩ := hasSubstance_of_reference? h
  exact ⟨⟨ts.takeWhile isInName, (List.takeWhile_prefix _).isInfix,
    fun t ht => List.mem_takeWhile_imp ht, hname⟩, hsub⟩

/-! ### Where the names of outlines come from -/

section Readers

variable {all ts : List Token}

theorem readNames_isReferenceIn (ends : Token → Bool) (ts : List Token) :
    ∀ name ∈ (readNames ends ts).1, IsReferenceIn ts name := by
  fun_induction readNames ends ts with
  | case1 => exact fun name h => absurd h List.not_mem_nil
  | case2 => exact fun name h => absurd h List.not_mem_nil
  | case3 t rest _ _ ih =>
    exact fun name h => (ih name h).of_suffix (List.suffix_cons t rest)
  | case4 => exact fun name h => absurd h List.not_mem_nil
  | case5 t rest _ _ collected after hc _ more ih =>
    intro name h
    rcases List.mem_append.mp h with h | h
    · rw [Option.mem_toList] at h
      exact isReferenceIn_collectName (by rwa [hc])
    · exact (ih name h).of_suffix (suffix_of_collectName hc)

/-- What a header says is what it said before, or is written in it. -/
theorem readHeader_isReferenceIn {parent : Option String} {interfaces : List String}
    (hs : ts <:+ all) (hp : ∀ name ∈ parent, IsReferenceIn all name)
    (hi : ∀ name ∈ interfaces, IsReferenceIn all name) :
    (∀ name ∈ (readHeader parent interfaces ts).parent, IsReferenceIn all name) ∧
      ∀ name ∈ (readHeader parent interfaces ts).interfaces, IsReferenceIn all name := by
  fun_induction readHeader parent interfaces ts with
  | case1 => exact ⟨hp, hi⟩
  | case2 => exact ⟨hp, hi⟩
  | case3 => exact ⟨hp, hi⟩
  | case4 parent interfaces t ts _ _ _ _ ih =>
    have hts : ts <:+ all := (List.suffix_cons t ts).trans hs
    refine ih ((collectName_suffix ts).trans hts) (fun name h => ?_) hi
    rcases Option.or_eq_some_iff.mp h with h | ⟨-, h⟩
    · exact hp name h
    · exact (isReferenceIn_collectName h).of_suffix hts
  | case5 parent interfaces t ts _ _ _ _ _ list ih =>
    have hts : ts <:+ all := (List.suffix_cons t ts).trans hs
    refine ih ((readNames_suffix endsInterfaces ts).trans hts) hp fun name h => ?_
    rcases List.mem_append.mp h with h | h
    · exact hi name h
    · exact (readNames_isReferenceIn endsInterfaces ts name h).of_suffix hts
  | case6 parent interfaces t ts _ _ _ _ ih =>
    exact ih ((List.suffix_cons t ts).trans hs) hp hi

theorem readTraitUse_isReferenceIn (ts : List Token) :
    ∀ name ∈ (readTraitUse ts).1, IsReferenceIn ts name := by
  have hnames : (readTraitUse ts).1 = (readNames endsTraits ts).1 := by
    rw [readTraitUse]
    cases (readNames endsTraits ts).2 with
    | nil => rfl
    | cons t rest =>
      dsimp only
      split
      · rfl
      · split <;> rfl
  rw [hnames]
  exact readNames_isReferenceIn endsTraits ts

theorem readBody_isReferenceIn (depth : Nat) (ts : List Token) :
    ∀ name ∈ (readBody depth ts).1, IsReferenceIn ts name := by
  fun_induction readBody depth ts with
  | case1 => exact fun name h => absurd h List.not_mem_nil
  | case2 d t ts _ ih | case4 d t ts _ _ _ ih | case6 d t ts _ _ _ ih =>
    exact fun name h => (ih name h).of_suffix (List.suffix_cons t ts)
  | case3 => exact fun name h => absurd h List.not_mem_nil
  | case5 d t ts _ _ _ _ used more ih =>
    intro name h
    rcases List.mem_append.mp h with h | h
    · exact (readTraitUse_isReferenceIn ts name h).of_suffix (List.suffix_cons t ts)
    · exact (ih name h).of_suffix ((readTraitUse_suffix ts).trans (List.suffix_cons t ts))

theorem readOutline_isReferenceIn (kind : DeclarationKind) (space shortName : String)
    (ts : List Token) :
    ∀ r, ∀ name ∈ (readOutline kind space shortName ts).1.written r, IsReferenceIn ts name := by
  have hnone : ∀ name ∈ (none : Option String), IsReferenceIn ts name :=
    fun name h => absurd h (Option.not_mem_none name)
  have hnil : ∀ name ∈ ([] : List String), IsReferenceIn ts name :=
    fun name h => absurd h List.not_mem_nil
  obtain ⟨hparent, hinterfaces⟩ := readHeader_isReferenceIn (List.suffix_refl ts) hnone hnil
  intro r name h
  cases r with
  | extending => exact hparent name (Option.mem_toList.mp h)
  | implementing => exact hinterfaces name h
  | usingTrait =>
    have htraits : name ∈ (readTraits kind (readHeader none [] ts)).1 := h
    rw [readTraits] at htraits
    split at htraits
    · exact (readBody_isReferenceIn 1 _ name htraits).of_suffix (readHeader_suffix none [] ts)
    · exact absurd htraits List.not_mem_nil

/-- **Every name of an outline is written in the file.** -/
theorem readFrom_isReferenceIn (space : String) (ts : List Token) :
    ∀ o ∈ readFrom space ts, ∀ r, ∀ name ∈ o.written r, IsReferenceIn ts name := by
  fun_induction readFrom space ts with
  | case1 => exact fun o h => absurd h List.not_mem_nil
  | case2 space t ts _ _ ih =>
    exact fun o ho r name h => (ih o ho r name h).of_suffix
      ((NamespaceHead.read_suffix ts).trans (List.suffix_cons t ts))
  | case3 space t ts _ _ ih =>
    exact fun o ho r name h => (ih o ho r name h).of_suffix (List.suffix_cons t ts)
  | case4 space t ts _ kind _ _ _ ih =>
    exact fun o ho r name h => (ih o ho r name h).of_suffix
      ((readShortName_suffix ts).trans (List.suffix_cons t ts))
  | case5 space t ts _ kind _ _ shortName _ _ ih =>
    have hname := (readShortName_suffix ts).trans (List.suffix_cons t ts)
    intro o ho r name h
    rcases List.mem_cons.mp ho with rfl | ho
    · exact (readOutline_isReferenceIn kind space shortName _ r name h).of_suffix hname
    · exact (ih o ho r name h).of_suffix
        ((readOutline_suffix kind space shortName _).trans hname)

end Readers

theorem readFrom_hasSubstance (space : String) (ts : List Token) :
    ∀ o ∈ readFrom space ts, o.HasSubstance := by
  intro o ho
  have h := readFrom_isReferenceIn space ts o ho
  exact ⟨fun name hn => (h .extending name (Option.mem_toList.mpr hn)).substance,
    fun name hn => (h .implementing name hn).substance,
    fun name hn => (h .usingTrait name hn).substance⟩

/-! ### Two tables of imports -/

/-- The references of a record are those of its outline, resolved, in order. -/
theorem IsRecordedAs.related {imports : ImportTable} {path : String} {o : Outline}
    {d : Declaration} (h : o.IsRecordedAs imports path d) (r : Relation) :
    (d.related r).map some = (o.written r).map (Name.resolve imports o.space) := by
  cases r with
  | extending =>
    have hparent := congrArg Option.toList h.parent
    rwa [Option.toList_map, Option.toList_map] at hparent
  | implementing => exact h.interfaces
  | usingTrait => exact h.traits

/-- The records `d` and `d'` of the outline `o` differ in nothing but what two tables of imports
make of its references. -/
structure AgreesUnder (imports imports' : ImportTable) (o : Outline) (d d' : Declaration) :
    Prop where
  /-- The full name is the same. -/
  name : d'.name = d.name
  /-- The path is the same. -/
  path : d'.path = d.path
  /-- The namespace is the same. -/
  space : d'.space = d.space
  /-- The short name is the same. -/
  shortName : d'.shortName = d.shortName
  /-- The kind is the same. -/
  kind : d'.kind = d.kind
  /-- Both have a parent, or none has. -/
  parent : d'.parent.isSome = d.parent.isSome
  /-- Each reference of the outline is one of both records. -/
  length : ∀ r, (d.related r).length = (o.written r).length ∧
    (d'.related r).length = (o.written r).length
  /-- A rooted reference is the same in both. -/
  rooted : ∀ (r : Relation) (i : Nat) (name : String), (o.written r)[i]? = some name →
    Name.IsRooted name → (d.related r)[i]? = some (Name.trimLeading name) ∧
      (d'.related r)[i]? = some (Name.trimLeading name)
  /-- Another reference is the same if both tables give its first segment the same import, or
  none. -/
  other : ∀ (r : Relation) (i : Nat) (name : String), (o.written r)[i]? = some name →
    imports.find? (Name.firstSegment name) = imports'.find? (Name.firstSegment name) →
    (d'.related r)[i]? = (d.related r)[i]?

theorem IsRecordedAs.agreesUnder {imports imports' : ImportTable} {path : String} {o : Outline}
    {d d' : Declaration} (hsub : ∀ r, ∀ name ∈ o.written r, Name.hasSubstance name = true)
    (h : o.IsRecordedAs imports path d) (h' : o.IsRecordedAs imports' path d') :
    o.AgreesUnder imports imports' d d' where
  name := h'.name.trans h.name.symm
  path := h'.path.trans h.path.symm
  space := h'.space.trans h.space.symm
  shortName := h'.shortName.trans h.shortName.symm
  kind := h'.kind.trans h.kind.symm
  parent := by
    have hp := congrArg Option.isSome h.parent
    have hp' := congrArg Option.isSome h'.parent
    rw [Option.isSome_map, Option.isSome_map] at hp hp'
    rw [hp, hp']
  length := by
    intro r
    have hr := congrArg List.length (h.related r)
    have hr' := congrArg List.length (h'.related r)
    rw [List.length_map, List.length_map] at hr hr'
    exact ⟨hr, hr'⟩
  rooted := by
    intro r i name hi hroot
    have hname := hsub r name (List.mem_of_getElem? hi)
    have hr := congrArg (·[i]?) (h.related r)
    have hr' := congrArg (·[i]?) (h'.related r)
    simp only [List.getElem?_map, hi, Option.map_some,
      Name.resolve_of_isRooted hroot hname] at hr hr'
    exact ⟨by simpa using hr, by simpa using hr'⟩
  other := by
    intro r i name hi hfind
    have hr := congrArg (·[i]?) (h.related r)
    have hr' := congrArg (·[i]?) (h'.related r)
    simp only [List.getElem?_map, hi, Option.map_some] at hr hr'
    rw [← Name.resolve_congr hfind, ← hr] at hr'
    exact Option.map_injective (Option.some_injective String) hr'

end Outline

open Outline

namespace Declaration

/-- **Every outline is recorded with all its names,** whatever the tokens and the imports are. -/
theorem scanWith_isRecordedAs (imports : ImportTable) (path : String) (ts : List Token) :
    List.Forall₂ (IsRecordedAs imports path) (readAll ts) (scanWith imports path ts) := by
  rw [scanWith, List.forall₂_map_right_iff, List.forall₂_same]
  intro o ho
  exact (readFrom_hasSubstance "" ts o ho).isRecordedAs imports path

/-- **Imports change nothing but the text of references.**  Whatever the tokens are, each name
that a declaration refers to is written by a run of them, and under any two tables of imports
the file gives equally many records, which agree pair by pair in all that is not a reference,
in how many references they have, in those that are written with a leading separator, and in
those to whose first segment both tables give the same import, or none. -/
theorem scanWith_agreesUnder (ts : List Token) (path : String) (imports imports' : ImportTable) :
    (∀ o ∈ readAll ts, ∀ r, ∀ name ∈ o.written r, IsReferenceIn ts name) ∧
      (scanWith imports path ts).length = (scanWith imports' path ts).length ∧
      List.Forall₂ (fun o (p : Declaration × Declaration) =>
          o.AgreesUnder imports imports' p.1 p.2)
        (readAll ts) ((scanWith imports path ts).zip (scanWith imports' path ts)) := by
  have href := readFrom_isReferenceIn "" ts
  refine ⟨href, by rw [scanWith, scanWith, List.length_map, List.length_map], ?_⟩
  rw [scanWith, scanWith, List.zip_map', List.forall₂_map_right_iff, List.forall₂_same]
  intro o ho
  have hsub := readFrom_hasSubstance "" ts o ho
  exact (hsub.isRecordedAs imports path).agreesUnder
    (fun r name h => (href o ho r name h).substance) (hsub.isRecordedAs imports' path)

end Declaration
end ClassLineage
