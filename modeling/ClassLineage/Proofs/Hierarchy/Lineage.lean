import ClassLineage.Proofs.Hierarchy.Build
import ClassLineage.Search

/-!
# Descendants and searches

Without types, the graph of declarations follows all references, and its descendants of a name are
the declared names from which a chain of references leads to it.  With types it follows only the
edges of these types.  There is one edge from a name to another, of the type of the last reference
between them, so that the graph may leave out what a search for the references of one relation
finds.

## Main definitions

* `Hierarchy.DirectlyRelated` — some declaration of a name refers to another name.

## Main results

* `Hierarchy.descendants_ofDeclarations` — **the descendants of a name are those that are related
  to it,** spelled as where they are declared first.
* `Hierarchy.descendants_of_refersTo` — **which of the declarations that a search finds are
  descendants by edges of its relation.**
-/

namespace ClassLineage
namespace Hierarchy

open Text

variable {ds : List Declaration} {links : List Link} {a b : String}

/-! ### All relations -/

/-- Some declaration of a name refers to another name, both in normal form. -/
def DirectlyRelated (ds : List Declaration) (a b : String) : Prop :=
  ∃ d ∈ ds, Name.normalize d.name = a ∧ ∃ r, ∃ name ∈ d.related r, Name.normalize name = b

theorem exists_mem_linksOf : (∃ r, ⟨a, b, r⟩ ∈ linksOf ds) ↔ DirectlyRelated ds a b := by
  unfold DirectlyRelated
  simp only [mem_linksOf]
  constructor
  · rintro ⟨r, d, hd, ha, hb⟩
    exact ⟨d, hd, ha, r, hb⟩
  · rintro ⟨d, hd, ha, r, hb⟩
    exact ⟨r, d, hd, ha, hb⟩

/-- An edge of any type stands for a reference. -/
theorem refers_allEdgeTypes : Refers allEdgeTypes (linksOf ds) = DirectlyRelated ds := by
  ext a b
  rw [← exists_mem_linksOf, ← exists_lastRelation?]
  unfold Refers
  apply exists_congr
  intro r
  apply and_iff_left
  cases r <;> simp [allEdgeTypes, Relation.all]

/-- Names that are spelled as where they are declared first have different normal forms. -/
theorem nodup_normalize {names : List String} (hnodup : names.Nodup)
    (hfirst : ∀ name ∈ names, (first? ds (Name.normalize name)).map (·.name) = some name) :
    (names.map Name.normalize).Nodup := by
  apply hnodup.map_on
  intro x hx y hy hxy
  have hspelled := hfirst x hx
  rw [hxy, hfirst y hy] at hspelled
  exact (Option.some.inj hspelled).symm

/-- **The descendants of a name are the other names from which a chain of references leads to it:**
each once, spelled as where it is declared first, in the order of their lower-case forms, in
whatever order the ancestors of its node come. -/
theorem descendants_ofDeclarations (ds : List Declaration) (target : String) :
    ∃ names, (ofDeclarations ds).descendants target [] = .ok names
      ∧ (∀ a, a ∈ names.map Name.normalize ↔ a ≠ Name.normalize target
          ∧ Relation.TransGen (DirectlyRelated ds) a (Name.normalize target))
      ∧ (names.map Name.normalize).Nodup
      ∧ (∀ name ∈ names, (first? ds (Name.normalize name)).map (·.name) = some name)
      ∧ names.Pairwise (fun a b => lower a < lower b)
      ∧ ∀ ids order, (ofDeclarations ds).ancestors allEdgeTypes (nodeId target) = .ok ids →
          order.Perm ids → (ofDeclarations ds).namesOf order = .ok names := by
  have hg := isComplete_ofDeclarations ds
  obtain ⟨names, hnames, hlist⟩ := hg.descendants target []
  have hmem : ∀ name, name ∈ names ↔ (first? ds (Name.normalize name)).map (·.name) = some name
      ∧ Name.normalize name ≠ Name.normalize target
      ∧ Relation.TransGen (DirectlyRelated ds) (Name.normalize name) (Name.normalize target) := by
    intro name
    rw [hlist.mem_iff, isDescendant_iff, countedTypes_nil, refers_allEdgeTypes]
  have hfirst : ∀ name ∈ names, (first? ds (Name.normalize name)).map (·.name) = some name :=
    fun name hname => ((hmem name).mp hname).1
  refine ⟨names, hnames, ?_, nodup_normalize hlist.nodup hfirst, hfirst, hlist.increasing, ?_⟩
  · intro a
    rw [List.mem_map]
    constructor
    · rintro ⟨name, hname, rfl⟩
      exact ((hmem name).mp hname).2
    · rintro ⟨hne, hchain⟩
      -- what refers to something is declared, and the first declaration tells how it is spelled
      obtain ⟨d, hd⟩ := exists_first?_of_chain (refers_allEdgeTypes ▸ hchain)
      obtain rfl := normalize_of_first? hd
      refine ⟨d.name, (hmem d.name).mpr ⟨?_, hne, hchain⟩, rfl⟩
      rw [hd]
      rfl
  · intro ids order hids hperm
    rw [← hnames]
    exact hg.namesOf_eq_descendants hids hperm

/-! ### One relation -/

theorem edgeType_inj {r s : Relation} : r.edgeType = s.edgeType ↔ r = s := by
  cases r <;> cases s <;> simp [Relation.edgeType]

/-- An edge of one type stands for a last reference by one relation. -/
theorem refers_edgeType (links : List Link) (r : Relation) :
    Refers [r.edgeType] links = fun a b => lastRelation? links a b = some r := by
  ext a b
  unfold Refers
  constructor
  · rintro ⟨s, hs, htype⟩
    rw [List.mem_singleton, edgeType_inj] at htype
    rw [hs, htype]
  · intro h
    exact ⟨r, h, List.mem_singleton_self _⟩

/-- What a search finds is directly related to its target. -/
theorem directlyRelated_of_refersTo {d : Declaration} {target : String} {r : Relation} (hd : d ∈ ds)
    (h : Search.refersTo target r d = true) :
    DirectlyRelated ds (Name.normalize d.name) (Name.normalize target) := by
  unfold Search.refersTo at h
  obtain ⟨name, hname, hnorm⟩ := List.any_eq_true.mp h
  exact ⟨d, hd, rfl, r, name, hname, of_decide_eq_true hnorm⟩

/-- **What a search finds, and what the graph tells of it.**  A declaration of another name that
refers to the target by a relation is a descendant of it, under the name of the first declaration
of its name, if edges of all types count.  If only those of the relation count, it is one exactly if
a chain of names leads to the target in which each last refers to the next by the relation; this is
so if its own name last refers to the target by it. -/
theorem descendants_of_refersTo {d : Declaration} {target : String} {r : Relation} (hd : d ∈ ds)
    (hrefers : Search.refersTo target r d = true)
    (hne : Name.normalize d.name ≠ Name.normalize target) :
    ∃ first all names, first? ds (Name.normalize d.name) = some first
      ∧ (ofDeclarations ds).descendants target [] = .ok all ∧ first.name ∈ all
      ∧ (ofDeclarations ds).descendants target [r.edgeType] = .ok names
      ∧ (first.name ∈ names ↔ Relation.TransGen
          (fun a b => lastRelation? (linksOf ds) a b = some r) (Name.normalize d.name)
          (Name.normalize target))
      ∧ (lastRelation? (linksOf ds) (Name.normalize d.name) (Name.normalize target) = some r →
          first.name ∈ names) := by
  have hg := isComplete_ofDeclarations ds
  have hrelated := directlyRelated_of_refersTo hd hrefers
  have hchain : Relation.TransGen (DirectlyRelated ds) (Name.normalize d.name)
      (Name.normalize target) := .single hrelated
  obtain ⟨first, hfirst⟩ := exists_first?_of_chain (refers_allEdgeTypes ▸ hchain)
  have hname : Name.normalize first.name = Name.normalize d.name := normalize_of_first? hfirst
  have hspelled : (first? ds (Name.normalize first.name)).map (·.name) = some first.name := by
    rw [hname, hfirst]
    rfl
  obtain ⟨all, hdescend, hlist⟩ := hg.descendants target []
  obtain ⟨names, hnames, hlist'⟩ := hg.descendants target [r.edgeType]
  have hmem : first.name ∈ names ↔ Relation.TransGen
      (fun a b => lastRelation? (linksOf ds) a b = some r) (Name.normalize d.name)
      (Name.normalize target) := by
    rw [hlist'.mem_iff, isDescendant_iff, countedTypes_singleton, refers_edgeType, hspelled, hname]
    constructor
    · rintro ⟨-, -, hlast⟩
      exact hlast
    · intro hlast
      exact ⟨rfl, hne, hlast⟩
  refine ⟨first, all, names, hfirst, hdescend, ?_, hnames, hmem, ?_⟩
  · rw [hlist.mem_iff, isDescendant_iff, countedTypes_nil, refers_allEdgeTypes, hspelled, hname]
    exact ⟨rfl, hne, hchain⟩
  · intro hlast
    exact hmem.mpr (.single hlast)

/-- A tree that holds two versions of a library.  In the first one `C` extends the class `Base`, in
the second one it implements the interface `Base`. -/
def twoVersions : List Declaration :=
  [⟨"Base", "v1/Base.php", "", "Base", "class", none, [], []⟩,
    ⟨"C", "v1/C.php", "", "C", "class", some "Base", [], []⟩,
    ⟨"Base", "v2/Base.php", "", "Base", "interface", none, [], []⟩,
    ⟨"C", "v2/C.php", "", "C", "class", none, ["Base"], []⟩]

theorem descendants_of_refersTo_twoVersions :
    (∃ d ∈ twoVersions, Search.refersTo "\\base" .implementing d = true
      ∧ Name.normalize d.name ≠ Name.normalize "\\base")
      ∧ ∃ first all names, first? twoVersions (Name.normalize "C") = some first
        ∧ (ofDeclarations twoVersions).descendants "\\base" [] = .ok all ∧ first.name ∈ all
        ∧ (ofDeclarations twoVersions).descendants "\\base" ["IMPLEMENTS"] = .ok names
        ∧ first.name ∈ names := by
  have hd : (⟨"C", "v2/C.php", "", "C", "class", none, ["Base"], []⟩ : Declaration)
      ∈ twoVersions := by decide
  have hrefers : Search.refersTo "\\base" .implementing
      ⟨"C", "v2/C.php", "", "C", "class", none, ["Base"], []⟩ = true := by decide +kernel
  have hne : Name.normalize "C" ≠ Name.normalize "\\base" := by decide +kernel
  refine ⟨⟨_, hd, hrefers, hne⟩, ?_⟩
  obtain ⟨first, all, names, hfirst, hall, hmem, hnames, -, hlast⟩ :=
    descendants_of_refersTo hd hrefers hne
  exact ⟨first, all, names, hfirst, hall, hmem, hnames, hlast (by decide +kernel)⟩

/-- A search finds the first version of `C` by the class that it extends, and the graph has no edge
for this reference, because the second version refers to the same name. -/
theorem not_descendant_of_refersTo :
    ¬ ∀ (ds : List Declaration) (target : String) (r : Relation), ∀ d ∈ ds,
      Search.refersTo target r d = true → Name.normalize d.name ≠ Name.normalize target →
      ∃ first names, first? ds (Name.normalize d.name) = some first
        ∧ (ofDeclarations ds).descendants target [r.edgeType] = .ok names ∧ first.name ∈ names := by
  intro h
  have hd : (⟨"C", "v1/C.php", "", "C", "class", some "Base", [], []⟩ : Declaration)
      ∈ twoVersions := by decide
  obtain ⟨first, names, -, hnames, hmem⟩ :=
    h twoVersions "Base" .extending _ hd (by decide +kernel) (by decide +kernel)
  have hnone : (ofDeclarations twoVersions).descendants "Base" [Relation.extending.edgeType]
      = .ok [] := by decide +kernel
  rw [hnone] at hnames
  obtain rfl := Except.ok.inj hnames
  cases hmem

end Hierarchy
end ClassLineage
