import ClassLineage.Hierarchy.Descendants
import ClassLineage.Proofs.Except
import ClassLineage.Proofs.Hierarchy
import ClassLineage.Proofs.Name.Normal
import Mathlib.Data.List.ReduceOption
import Mathlib.Data.List.Sort
import Mathlib.Data.String.Basic
import Mathlib.Logic.Relation

/-!
# What the search of descendants finds

The search goes against the edges, node by node, and keeps the nodes that it has seen.  Between
two visits, every edge into a visited node comes from a node that has been seen; so at the end
the nodes seen are those from which a chain of edges leads to the target.  The names of those
that are declared have different lower-case forms, so that their order is determined.

## Main definitions

* `Hierarchy.Leads` — an edge of given types leads from a node to another.
* `Hierarchy.IsComplete` — a graph in which nothing is missing that the search needs.
* `Hierarchy.Explored` — what holds between two visits of the search.
* `Hierarchy.IsListing` — the names with a property, by their lower-case forms.

## Main results

* `Hierarchy.Explored.visit`, `Hierarchy.search_eq_ok` — **what a visit keeps, and what the
  search comes to.**
* `Hierarchy.IsListing.unique` — a listing is determined by its property.
* `Hierarchy.IsComplete.descendants` — **the descendants of a name in a complete graph,** and
  `Hierarchy.IsComplete.namesOf_eq_descendants` — they are the same in whatever order its ancestors
  come.
-/

namespace ClassLineage
namespace Hierarchy

open Text

/-! ### Listings -/

/-- The names are those with a property, each once, and their lower-case forms increase. -/
structure IsListing (P : String → Prop) (names : List String) : Prop where
  /-- The lower-case forms increase strictly. -/
  increasing : names.Pairwise fun a b => lower a < lower b
  /-- The names are those with the property. -/
  mem_iff : ∀ name, name ∈ names ↔ P name

section Listing

variable {P : String → Prop} {names others : List String}

theorem IsListing.nodup (h : IsListing P names) : names.Nodup := by
  apply h.increasing.imp
  rintro a b hlt rfl
  exact lt_irrefl _ hlt

/-- Sorted names of different lower-case forms increase. -/
theorem increasing_sortNames (h : names.Pairwise fun a b => lower a ≠ lower b) :
    (sortNames names).Pairwise fun a b => lower a < lower b := by
  unfold sortNames
  have hsorted : (names.mergeSort fun a b => decide (lower a ≤ lower b)).Pairwise
      fun a b => decide (lower a ≤ lower b) = true := by
    apply List.pairwise_mergeSort
    · simpa using fun a b c => le_trans
    · simpa using fun a b => le_total _ _
  have hdistinct : (names.mergeSort fun a b => decide (lower a ≤ lower b)).Pairwise
      fun a b => lower a ≠ lower b :=
    ((List.mergeSort_perm names _).pairwise_iff Ne.symm).mpr h
  apply hsorted.imp₂ _ hdistinct
  intro a b hle hne
  exact lt_of_le_of_ne (of_decide_eq_true hle) hne

/-- **A listing is determined by its property.** -/
theorem IsListing.unique (h : IsListing P names) (h' : IsListing P others) : names = others := by
  have hperm : names.Perm others := by
    rw [List.perm_ext_iff_of_nodup h.nodup h'.nodup]
    intro name
    rw [h.mem_iff, h'.mem_iff]
  apply hperm.eq_of_pairwise _ h.increasing h'.increasing
  intro a b _ _ hab hba
  exact absurd hba (lt_asymm hab)

end Listing

/-! ### Edges into a node -/

/-- An edge of one of the types leads from a node to another. -/
def Leads (types : List String) (g : Hierarchy) (a b : String) : Prop :=
  ∃ e ∈ g.edges, e.ends = (a, b) ∧ ∃ type ∈ types, e.type? = some (.str type)

/-- Nothing is missing that the search needs: each edge tells its type, and each node that is
not external its full name, which stands for the node. -/
structure IsComplete (g : Hierarchy) : Prop extends g.WellFormed where
  /-- Each edge tells its type. -/
  typed : ∀ e ∈ g.edges, ∃ type, e.type? = some (.str type)
  /-- Each node is external, or tells its full name. -/
  named : ∀ id ∈ g.nodes.keys, ∃ name, g.declaredName? id = .ok name
    ∧ ∀ full ∈ name, nodeId full = id

variable {g : Hierarchy} {types seen visits : List String} {node target : String}

theorem Leads.source_mem (hg : g.WellFormed) {a b : String} (h : g.Leads types a b) :
    a ∈ g.nodes.keys := by
  obtain ⟨e, he, hends, -⟩ := h
  obtain rfl : e.source = a := congrArg Prod.fst hends
  exact hg.source_mem e he

theorem Leads.target_mem (hg : g.WellFormed) {a b : String} (h : g.Leads types a b) :
    b ∈ g.nodes.keys := by
  obtain ⟨e, he, hends, -⟩ := h
  obtain rfl : e.target = b := congrArg Prod.snd hends
  exact hg.target_mem e he

/-- A chain of edges leads from a node of the graph. -/
theorem source_mem_of_chain (hg : g.WellFormed) {a b : String}
    (h : Relation.TransGen (g.Leads types) a b) : a ∈ g.nodes.keys := by
  obtain ⟨c, hlead, -⟩ := Relation.TransGen.head'_iff.mp h
  exact hlead.source_mem hg

/-- A chain of edges leads to a node of the graph. -/
theorem target_mem_of_chain (hg : g.WellFormed) {a b : String}
    (h : Relation.TransGen (g.Leads types) a b) : b ∈ g.nodes.keys := by
  obtain ⟨c, -, hlead⟩ := Relation.TransGen.tail'_iff.mp h
  exact hlead.target_mem hg

/-- The nodes from which an edge of one of the types leads to a node are found, each once. -/
theorem IsComplete.sourcesInto (hg : g.IsComplete) (types : List String) (target : String) :
    ∃ sources, g.sourcesInto types target = .ok sources ∧ sources.Nodup
      ∧ ∀ a, a ∈ sources ↔ g.Leads types a target := by
  have hallowed : ∀ e ∈ g.edgesInto target,
      isAllowed types e = .ok (Except.passes (isAllowed types) e) := by
    intro e he
    obtain ⟨type, htype⟩ := hg.typed e (List.mem_filter.mp he).1
    simp [isAllowed, Except.passes, htype]
  refine ⟨((g.edgesInto target).filter (Except.passes (isAllowed types))).map (·.source),
    ?_, ?_, ?_⟩
  · unfold Hierarchy.sourcesInto
    rw [Except.filterM_of_ok hallowed]
    rfl
  · -- edges into one node that have one source are the same
    have hsub : ((g.edgesInto target).filter (Except.passes (isAllowed types))).Sublist g.edges :=
      List.filter_sublist.trans List.filter_sublist
    have hends := hg.nodup_edges.sublist (hsub.map Edge.ends)
    have htarget : ((g.edgesInto target).filter (Except.passes (isAllowed types))).map Edge.ends
        = (((g.edgesInto target).filter (Except.passes (isAllowed types))).map (·.source)).map
            (·, target) := by
      rw [List.map_map]
      apply List.map_congr_left
      intro e he
      have hinto := (List.mem_filter.mp (List.mem_filter.mp he).1).2
      exact Prod.ext rfl (of_decide_eq_true hinto)
    rw [htarget] at hends
    exact hends.of_map _
  · intro a
    unfold Leads edgesInto
    simp only [List.mem_map, List.mem_filter, decide_eq_true_eq]
    constructor
    · rintro ⟨e, ⟨⟨he, rfl⟩, hpasses⟩, rfl⟩
      refine ⟨e, he, rfl, ?_⟩
      obtain ⟨type, htype⟩ := hg.typed e he
      refine ⟨type, ?_, htype⟩
      simpa [Except.passes, isAllowed, htype] using hpasses
    · rintro ⟨e, he, hends, type, hmem, htype⟩
      obtain ⟨rfl, rfl⟩ := Prod.mk.inj hends
      refine ⟨e, ⟨⟨he, rfl⟩, ?_⟩, rfl⟩
      simpa [Except.passes, isAllowed, htype] using hmem

/-! ### The search -/

/-- What holds between two visits: the nodes seen are nodes of the graph, each once; those to
visit are among them; and whatever leads to one of the others has been seen. -/
structure Explored (types : List String) (g : Hierarchy) (seen visits : List String) : Prop where
  /-- Each node is seen once. -/
  nodup : seen.Nodup
  /-- What is seen are nodes of the graph. -/
  mem_nodes : ∀ a ∈ seen, a ∈ g.nodes.keys
  /-- What is to visit has been seen. -/
  visits_seen : ∀ a ∈ visits, a ∈ seen
  /-- What leads to a node that has been visited is seen. -/
  closed : ∀ b ∈ seen, b ∉ visits → ∀ a, g.Leads types a b → a ∈ seen

/-- No more nodes are seen than there are. -/
theorem Explored.length_le (h : Explored types g seen visits) :
    seen.length ≤ g.nodes.length := by
  have hsub : seen ⊆ g.nodes.keys := fun a ha => h.mem_nodes a ha
  have hle := h.nodup.length_le_of_subset hsub
  unfold Entries.keys at hle
  rwa [List.length_map] at hle

/-- Once as many nodes are seen as there are, nothing is left to visit. -/
theorem Explored.of_length_eq (hg : g.WellFormed) (h : Explored types g seen visits)
    (hlen : seen.length = g.nodes.length) : Explored types g seen [] := by
  have hperm : seen.Perm g.nodes.keys := by
    apply (List.subperm_of_subset h.nodup h.mem_nodes).perm_of_length_le
    unfold Entries.keys
    rw [List.length_map, hlen]
  refine ⟨h.nodup, h.mem_nodes, by simp, ?_⟩
  intro b _ _ a hlead
  exact hperm.mem_iff.mpr (hlead.source_mem hg)

/-- **A visit keeps what holds between visits:** what leads to the node is seen, and to be
visited if it is new. -/
theorem Explored.visit (hg : g.WellFormed) (h : Explored types g seen (node :: visits))
    {sources : List String} (hnodup : sources.Nodup)
    (hsources : ∀ a, a ∈ sources ↔ g.Leads types a node) :
    Explored types g (seen ++ sources.filter (!seen.contains ·))
      (visits ++ sources.filter (!seen.contains ·)) where
  nodup := by
    rw [List.nodup_append]
    refine ⟨h.nodup, hnodup.filter _, ?_⟩
    rintro a ha b hb rfl
    simp [ha] at hb
  mem_nodes := by
    intro a ha
    rcases List.mem_append.mp ha with ha | ha
    · exact h.mem_nodes a ha
    · exact ((hsources a).mp (List.mem_filter.mp ha).1).source_mem hg
  visits_seen := by
    intro a ha
    rcases List.mem_append.mp ha with ha | ha
    · exact List.mem_append_left _ (h.visits_seen a (List.mem_cons_of_mem _ ha))
    · exact List.mem_append_right _ ha
  closed := by
    intro b hb hnot a hlead
    rw [List.mem_append, not_or] at hnot
    have hseen : b ∈ seen := (List.mem_append.mp hb).resolve_right hnot.2
    by_cases hnode : b = node
    · subst hnode
      by_cases ha : a ∈ seen
      · exact List.mem_append_left _ ha
      · apply List.mem_append_right
        exact List.mem_filter.mpr ⟨(hsources a).mpr hlead, by simpa using ha⟩
    · have hvisits : b ∉ node :: visits := by simp [hnode, hnot.1]
      exact List.mem_append_left _ (h.closed b hseen hvisits a hlead)

/-- **The search comes to an end at which nothing is left to visit,** and whatever it adds leads
to a node seen before. -/
theorem search_eq_ok (hg : g.IsComplete) {fuel : Nat} (h : Explored types g seen visits)
    (hfuel : visits.length + g.nodes.length < fuel + seen.length) :
    ∃ more, search types g fuel seen visits = .ok (seen ++ more)
      ∧ Explored types g (seen ++ more) []
      ∧ ∀ a ∈ more, ∃ b ∈ seen, Relation.TransGen (g.Leads types) a b := by
  induction fuel generalizing seen visits with
  | zero =>
    have hle := h.length_le
    omega
  | succ fuel ih =>
    cases visits with
    | nil => exact ⟨[], by rw [List.append_nil]; rfl, by rwa [List.append_nil], by simp⟩
    | cons node visits =>
      obtain ⟨sources, hok, hnodup, hsources⟩ := hg.sourcesInto types node
      have hvisit := h.visit hg.toWellFormed hnodup hsources
      have hnode : node ∈ seen := h.visits_seen node List.mem_cons_self
      have hfresh : ∀ a ∈ sources.filter (!seen.contains ·), g.Leads types a node := by
        intro a ha
        exact (hsources a).mp (List.mem_filter.mp ha).1
      have hstep : search types g (fuel + 1) seen (node :: visits)
          = if (seen ++ sources.filter (!seen.contains ·)).length = g.nodes.length
            then .ok (seen ++ sources.filter (!seen.contains ·))
            else search types g fuel (seen ++ sources.filter (!seen.contains ·))
              (visits ++ sources.filter (!seen.contains ·)) := by
        rw [search, hok]
        rfl
      rw [hstep]
      by_cases hlen : (seen ++ sources.filter (!seen.contains ·)).length = g.nodes.length
      · rw [if_pos hlen]
        refine ⟨_, rfl, hvisit.of_length_eq hg.toWellFormed hlen, ?_⟩
        intro a ha
        exact ⟨node, hnode, .single (hfresh a ha)⟩
      · rw [if_neg hlen]
        obtain ⟨more, hmore, hend, hleads⟩ := ih hvisit (by
          simp only [List.length_append, List.length_cons] at hfuel ⊢
          omega)
        refine ⟨sources.filter (!seen.contains ·) ++ more, ?_, ?_, ?_⟩
        · rw [hmore, List.append_assoc]
        · rwa [← List.append_assoc]
        · intro a ha
          rcases List.mem_append.mp ha with ha | ha
          · exact ⟨node, hnode, .single (hfresh a ha)⟩
          · obtain ⟨b, hb, hab⟩ := hleads a ha
            rcases List.mem_append.mp hb with hb | hb
            · exact ⟨b, hb, hab⟩
            · exact ⟨node, hnode, hab.tail (hfresh b hb)⟩

/-- A name that no node stands for has no ancestors. -/
theorem ancestors_of_not_mem (hg : g.WellFormed) (types : List String)
    (htarget : target ∉ g.nodes.keys) : g.ancestors types target = .ok [] := by
  have hsources : g.sourcesInto types target = .ok [] := by
    have hnone : g.edgesInto target = [] := by
      unfold edgesInto
      rw [List.filter_eq_nil_iff]
      intro e he hinto
      obtain rfl := of_decide_eq_true hinto
      exact htarget (hg.target_mem e he)
    unfold Hierarchy.sourcesInto
    rw [hnone]
    rfl
  have hsearch : search types g (g.nodes.length + 1) [target] [target] = .ok [target] := by
    rw [search, hsources]
    show (if [target].length = g.nodes.length then Except.ok [target]
      else search types g g.nodes.length [target] []) = _
    split
    · rfl
    · cases g.nodes.length <;> rfl
  unfold Hierarchy.ancestors
  rw [hsearch]
  rfl

/-- **The ancestors of a node are the other nodes from which a chain of edges leads to it.** -/
theorem IsComplete.ancestors (hg : g.IsComplete) (types : List String) (target : String) :
    ∃ ids, g.ancestors types target = .ok ids ∧ ids.Nodup
      ∧ ∀ a, a ∈ ids ↔ a ≠ target ∧ Relation.TransGen (g.Leads types) a target := by
  by_cases htarget : target ∈ g.nodes.keys
  · have hstart : Explored types g [target] [target] := by
      constructor <;> simp [htarget]
    have hfuel : [target].length + g.nodes.length < g.nodes.length + 1 + [target].length := by
      rw [List.length_singleton]
      omega
    obtain ⟨more, hmore, hend, hleads⟩ := search_eq_ok hg hstart hfuel
    obtain ⟨hnot, hnodup⟩ := List.nodup_cons.mp hend.nodup
    refine ⟨more, by rw [Hierarchy.ancestors, hmore]; rfl, hnodup, ?_⟩
    intro a
    constructor
    · intro ha
      obtain ⟨b, hb, hab⟩ := hleads a ha
      obtain rfl := List.mem_singleton.mp hb
      refine ⟨?_, hab⟩
      rintro rfl
      exact hnot ha
    · rintro ⟨hne, hchain⟩
      -- what leads to a node seen has been seen
      have hseen : a ∈ [target] ++ more := by
        induction hchain using Relation.TransGen.head_induction_on with
        | single hlead => exact hend.closed target List.mem_cons_self (by simp) _ hlead
        | @head a c hlead _ ih =>
          by_cases hc : c = target
          · subst hc
            exact hend.closed c List.mem_cons_self (by simp) _ hlead
          · exact hend.closed c (ih hc) (by simp) _ hlead
      exact (List.mem_cons.mp hseen).resolve_left hne
  · refine ⟨[], ancestors_of_not_mem hg.toWellFormed types htarget, List.nodup_nil, ?_⟩
    intro a
    constructor
    · intro ha
      cases ha
    · rintro ⟨-, hchain⟩
      exact absurd (target_mem_of_chain hg.toWellFormed hchain) htarget

/-! ### Descendants -/

/-- The types of the edges that count: those given, or all if none are. -/
def countedTypes (types : List String) : List String :=
  if types.isEmpty then allEdgeTypes else types

@[simp] theorem countedTypes_nil : countedTypes [] = allEdgeTypes := rfl

@[simp] theorem countedTypes_singleton (type : String) : countedTypes [type] = [type] := rfl

/-- The full names of those nodes that are declared, in order. -/
def namesOf (g : Hierarchy) (ids : List String) : Except GraphError (List String) := do
  return sortNames (← ids.mapM g.declaredName?).reduceOption

@[simp] theorem namesOf_nil (g : Hierarchy) : g.namesOf [] = .ok [] := by
  show Except.ok (sortNames []) = _
  rw [sortNames, List.mergeSort_nil]

theorem descendants_eq (g : Hierarchy) (name : String) (types : List String) :
    g.descendants name types
      = if g.hasNode (nodeId name) then g.ancestors (countedTypes types) (nodeId name) >>= g.namesOf
        else .ok [] := rfl

/-- A name is the full name of a node from which a chain of edges leads to another node, that of
the name given. -/
def IsDescendant (types : List String) (g : Hierarchy) (of name : String) : Prop :=
  ∃ id, id ≠ nodeId of ∧ Relation.TransGen (g.Leads types) id (nodeId of)
    ∧ g.declaredName? id = .ok (some name)

/-- The full name of a node, if the graph tells one. -/
def fullName? (g : Hierarchy) (id : String) : Option String := (g.declaredName? id).toOption.join

theorem IsComplete.declaredName?_eq (hg : g.IsComplete) {id : String} (hid : id ∈ g.nodes.keys) :
    g.declaredName? id = .ok (g.fullName? id) := by
  obtain ⟨name, hname, -⟩ := hg.named id hid
  unfold fullName?
  rw [hname]
  rfl

theorem IsComplete.nodeId_of_fullName? (hg : g.IsComplete) {id full : String}
    (hid : id ∈ g.nodes.keys) (hfull : g.fullName? id = some full) : nodeId full = id := by
  obtain ⟨name, hname, hstands⟩ := hg.named id hid
  rw [hg.declaredName?_eq hid, hfull] at hname
  exact hstands full (Except.ok.inj hname).symm

/-- Different nodes of a complete graph have full names of different lower-case forms. -/
theorem IsComplete.lower_ne (hg : g.IsComplete) {a b m n : String} (ha : a ∈ g.nodes.keys)
    (hb : b ∈ g.nodes.keys) (hm : g.fullName? a = some m) (hn : g.fullName? b = some n)
    (hne : a ≠ b) : lower m ≠ lower n := by
  intro hlower
  apply hne
  rw [← hg.nodeId_of_fullName? ha hm, ← hg.nodeId_of_fullName? hb hn, nodeId, nodeId,
    Name.normalize_eq_of_lower_eq hlower]

/-- **The full names of nodes of a complete graph are listed,** in the order of their lower-case
forms. -/
theorem IsComplete.namesOf (hg : g.IsComplete) {ids : List String} (hnodup : ids.Nodup)
    (hids : ∀ id ∈ ids, id ∈ g.nodes.keys) :
    ∃ names, g.namesOf ids = .ok names
      ∧ IsListing (fun full => ∃ id ∈ ids, g.declaredName? id = .ok (some full)) names := by
  have hnames : ids.mapM g.declaredName? = .ok (ids.map g.fullName?) :=
    Except.mapM_eq_ok fun id hid => hg.declaredName?_eq (hids id hid)
  refine ⟨sortNames (ids.map g.fullName?).reduceOption, ?_, ?_, ?_⟩
  · unfold Hierarchy.namesOf
    rw [hnames]
    rfl
  · apply increasing_sortNames
    rw [List.reduceOption, List.filterMap_map, List.pairwise_filterMap]
    apply hnodup.imp_of_mem
    intro a b ha hb hne m hm n hn
    exact hg.lower_ne (hids a ha) (hids b hb) hm hn hne
  · intro full
    rw [sortNames, List.mem_mergeSort, List.reduceOption_mem_iff, List.mem_map]
    apply exists_congr
    intro id
    apply and_congr_right
    intro hid
    rw [hg.declaredName?_eq (hids id hid), Except.ok.injEq]

/-- **In whatever order the ancestors of a name come, their full names are listed in the same
order.** -/
theorem IsComplete.namesOf_perm (hg : g.IsComplete) {ids order names : List String}
    (hids : g.ancestors types target = .ok ids) (hperm : order.Perm ids)
    (hnames : g.namesOf ids = .ok names) : g.namesOf order = .ok names := by
  obtain ⟨found, hfound, hnodup, hmem⟩ := hg.ancestors types target
  obtain rfl := Except.ok.inj (hfound.symm.trans hids)
  have hkeys : ∀ id ∈ found, id ∈ g.nodes.keys := fun id hid =>
    source_mem_of_chain hg.toWellFormed ((hmem id).mp hid).2
  obtain ⟨listed, hlisted, hlist⟩ := hg.namesOf hnodup hkeys
  obtain rfl := Except.ok.inj (hlisted.symm.trans hnames)
  obtain ⟨others, hothers, hlist'⟩ := hg.namesOf (hperm.nodup_iff.mpr hnodup)
    fun id hid => hkeys id (hperm.mem_iff.mp hid)
  rw [hothers]
  congr 1
  apply hlist'.unique
  refine ⟨hlist.increasing, ?_⟩
  intro full
  simp only [hlist.mem_iff, hperm.mem_iff]

/-- **In a complete graph the descendants of a name are listed,** in the order of their
lower-case forms. -/
theorem IsComplete.descendants (hg : g.IsComplete) (name : String) (types : List String) :
    ∃ names, g.descendants name types = .ok names
      ∧ IsListing (g.IsDescendant (countedTypes types) name) names := by
  obtain ⟨ids, hids, hnodup, hmem⟩ := hg.ancestors (countedTypes types) (nodeId name)
  have hkeys : ∀ id ∈ ids, id ∈ g.nodes.keys := fun id hid =>
    source_mem_of_chain hg.toWellFormed ((hmem id).mp hid).2
  obtain ⟨names, hnames, hlist⟩ := hg.namesOf hnodup hkeys
  refine ⟨names, ?_, hlist.increasing, ?_⟩
  · rw [descendants_eq]
    split
    · rw [hids]
      exact hnames
    · next hnode =>
      -- nothing leads to a name that no node stands for
      rw [hasNode_iff] at hnode
      obtain rfl := Except.ok.inj (hids.symm.trans (ancestors_of_not_mem hg.toWellFormed _ hnode))
      rw [← hnames, namesOf_nil]
  · intro full
    rw [hlist.mem_iff]
    unfold IsDescendant
    apply exists_congr
    intro id
    rw [hmem, and_assoc]

/-- **It does not matter in which order the ancestors of a name come** when their full names are
listed. -/
theorem IsComplete.namesOf_eq_descendants (hg : g.IsComplete) {name : String}
    {ids order : List String}
    (hids : g.ancestors (countedTypes types) (nodeId name) = .ok ids) (hperm : order.Perm ids) :
    g.namesOf order = g.descendants name types := by
  rw [descendants_eq]
  split
  · obtain ⟨found, hfound, hnodup, hmem⟩ := hg.ancestors (countedTypes types) (nodeId name)
    obtain rfl := Except.ok.inj (hfound.symm.trans hids)
    obtain ⟨names, hnames, -⟩ := hg.namesOf hnodup fun id hid =>
      source_mem_of_chain hg.toWellFormed ((hmem id).mp hid).2
    rw [hids, hg.namesOf_perm hids hperm hnames]
    exact hnames.symm
  · next hnode =>
    -- without a node there are no ancestors to come in any order
    rw [hasNode_iff] at hnode
    rw [ancestors_of_not_mem hg.toWellFormed _ hnode] at hids
    obtain rfl := Except.ok.inj hids
    rw [hperm.eq_nil, namesOf_nil]

/-- **Complete graphs in which the same nodes have the same attributes, and edges of the same types
lead from the same nodes to the same, have the same descendants.** -/
theorem IsComplete.descendants_congr {g' : Hierarchy} (hg : g.IsComplete) (hg' : g'.IsComplete)
    (hleads : ∀ types a b, g'.Leads types a b ↔ g.Leads types a b)
    (hnames : ∀ id ∈ g.nodes.keys, g'.declaredName? id = g.declaredName? id) (name : String)
    (types : List String) : g'.descendants name types = g.descendants name types := by
  obtain ⟨names, hnames₁, hlist⟩ := hg.descendants name types
  obtain ⟨names', hnames₂, hlist'⟩ := hg'.descendants name types
  have hsame : ∀ full, g'.IsDescendant (countedTypes types) name full
      ↔ g.IsDescendant (countedTypes types) name full := by
    intro full
    have hrel : g'.Leads (countedTypes types) = g.Leads (countedTypes types) := by
      ext a b
      exact hleads _ a b
    unfold IsDescendant
    rw [hrel]
    apply exists_congr
    intro id
    apply and_congr_right
    intro _
    apply and_congr_right
    intro hchain
    rw [hnames id (source_mem_of_chain hg.toWellFormed hchain)]
  rw [hnames₁, hnames₂]
  congr 1
  apply IsListing.unique _ hlist
  exact ⟨hlist'.increasing, fun full => (hlist'.mem_iff full).trans (hsame full)⟩

end Hierarchy
end ClassLineage
