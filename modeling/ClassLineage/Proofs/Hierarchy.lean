import ClassLineage.Hierarchy
import ClassLineage.Proofs.Entries
import Mathlib.Data.List.Perm.Basic

/-!
# Well-formed graphs

In a well-formed graph each node is there once, and each edge is the only one that joins its two
nodes, which are nodes of the graph.  Adding nodes and edges keeps a graph well-formed, and
listing the edges by their sources lists each of them once.

## Main definitions

* `Hierarchy.WellFormed` — the graph is well-formed.
* `Hierarchy.inOrder` — the graph with its edges listed by their sources.
* `Edge.ends` — the two nodes that an edge joins.

## Main results

* `Hierarchy.mem_putEdge`, `Hierarchy.ends_putEdge` — the edges after one has been set.
* `Hierarchy.edgesInOrder_perm` — **listing the edges by their sources only changes their order,**
  and `Hierarchy.WellFormed.edgesInOrder_inOrder` — listing them so again changes nothing.
-/

namespace ClassLineage

/-! ### Edges -/

/-- The two nodes that an edge joins. -/
def Edge.ends (e : Edge) : String × String := (e.source, e.target)

theorem Edge.joins_iff {source target : String} {e : Edge} :
    e.joins source target = true ↔ e.ends = (source, target) := by
  unfold joins ends
  simp

namespace Hierarchy

section PutEdge

variable {source target : String} {attributes : Entries Json} {edges : List Edge} {e : Edge}

/-- An edge between nodes that no edge joins comes last. -/
theorem putEdge_of_not_mem (h : (source, target) ∉ edges.map Edge.ends) :
    putEdge source target attributes edges = edges ++ [⟨source, target, attributes⟩] := by
  induction edges with
  | nil => rfl
  | cons first rest ih =>
    rw [List.map_cons, List.mem_cons, not_or] at h
    have hjoins : ¬ first.joins source target = true := by
      rw [Edge.joins_iff]
      exact Ne.symm h.1
    rw [putEdge, if_neg hjoins, ih h.2]
    rfl

/-- Setting an edge keeps those that are there in place. -/
theorem ends_putEdge :
    (putEdge source target attributes edges).map Edge.ends
      = if (source, target) ∈ edges.map Edge.ends then edges.map Edge.ends
        else edges.map Edge.ends ++ [(source, target)] := by
  induction edges with
  | nil => rfl
  | cons first rest ih =>
    rw [putEdge]
    by_cases hjoins : first.joins source target = true
    · have hends : first.ends = (source, target) := Edge.joins_iff.mp hjoins
      rw [if_pos hjoins, if_pos (by simp [hends]), List.map_cons, List.map_cons, hends]
      rfl
    · have hends : (source, target) ≠ first.ends := fun heq => hjoins (Edge.joins_iff.mpr heq.symm)
      rw [if_neg hjoins, List.map_cons, List.map_cons, ih]
      by_cases hmem : (source, target) ∈ rest.map Edge.ends
      · rw [if_pos hmem, if_pos (List.mem_cons_of_mem _ hmem)]
      · rw [if_neg hmem, if_neg (by simp [hends, hmem]), List.cons_append]

theorem nodup_ends_putEdge (h : (edges.map Edge.ends).Nodup) :
    ((putEdge source target attributes edges).map Edge.ends).Nodup := by
  rw [ends_putEdge]
  split
  · exact h
  · next hnot =>
    rw [List.nodup_append]
    refine ⟨h, List.nodup_singleton _, ?_⟩
    intro a ha b hb hab
    obtain rfl := List.mem_singleton.mp hb
    exact hnot (hab ▸ ha)

/-- Where setting attributes leaves no others, an edge that is set takes the place of the one
that joins its nodes, and all others stay. -/
theorem mem_putEdge (h : (edges.map Edge.ends).Nodup)
    (hset : ∀ e ∈ edges, attributes.putAll e.attributes = attributes) :
    e ∈ putEdge source target attributes edges
      ↔ e = ⟨source, target, attributes⟩ ∨ e ∈ edges ∧ e.joins source target = false := by
  induction edges with
  | nil => simp [putEdge]
  | cons first rest ih =>
    rw [List.map_cons, List.nodup_cons] at h
    have ih := ih h.2 fun e he => hset e (List.mem_cons_of_mem _ he)
    rw [putEdge]
    by_cases hjoins : first.joins source target = true
    · rw [if_pos hjoins, hset first List.mem_cons_self]
      -- no other edge joins the two nodes
      have hrest : ∀ e ∈ rest, e.joins source target = false := by
        intro e he
        rw [Bool.eq_false_iff, Ne, Edge.joins_iff, ← Edge.joins_iff.mp hjoins]
        intro hends
        exact h.1 (hends ▸ List.mem_map_of_mem he)
      constructor
      · intro he
        rcases List.mem_cons.mp he with rfl | he
        · exact Or.inl rfl
        · exact Or.inr ⟨List.mem_cons_of_mem _ he, hrest e he⟩
      · rintro (rfl | ⟨he, hnot⟩)
        · exact List.mem_cons_self
        · rcases List.mem_cons.mp he with rfl | he
          · simp [hjoins] at hnot
          · exact List.mem_cons_of_mem _ he
    · rw [if_neg hjoins, List.mem_cons, ih, List.mem_cons]
      constructor
      · rintro (rfl | rfl | ⟨he, hnot⟩)
        · exact Or.inr ⟨Or.inl rfl, Bool.eq_false_iff.mpr hjoins⟩
        · exact Or.inl rfl
        · exact Or.inr ⟨Or.inr he, hnot⟩
      · rintro (rfl | ⟨rfl | he, hnot⟩)
        · exact Or.inr (Or.inl rfl)
        · exact Or.inl rfl
        · exact Or.inr (Or.inr ⟨he, hnot⟩)

end PutEdge

/-! ### Well-formed graphs -/

/-- The graph is well-formed: no node is there twice, no two edges join the same nodes, and
edges join nodes that are there. -/
structure WellFormed (g : Hierarchy) : Prop where
  /-- Each node is there once. -/
  nodup_nodes : g.nodes.keys.Nodup
  /-- Each edge is the only one that joins its nodes. -/
  nodup_edges : (g.edges.map Edge.ends).Nodup
  /-- Edges leave nodes of the graph. -/
  source_mem : ∀ e ∈ g.edges, e.source ∈ g.nodes.keys
  /-- Edges reach nodes of the graph. -/
  target_mem : ∀ e ∈ g.edges, e.target ∈ g.nodes.keys

variable {g : Hierarchy}

theorem hasNode_iff {id : String} : g.hasNode id = true ↔ id ∈ g.nodes.keys := by
  unfold hasNode node?
  exact Entries.isSome_find?_iff

/-- The edges that leave some of the nodes, by their sources, are those edges in another order. -/
theorem flatMap_edgesFrom_perm {ids : List String} (h : ids.Nodup) :
    (ids.flatMap (g.edgesFrom ·)).Perm (g.edges.filter fun e => e.source ∈ ids) := by
  induction ids with
  | nil => simp
  | cons id ids ih =>
    obtain ⟨hnot, hnodup⟩ := List.nodup_cons.mp h
    have hsplit := List.filter_append_perm (fun e : Edge => e.source = id)
      (g.edges.filter fun e => e.source ∈ id :: ids)
    have hfirst : (g.edges.filter fun e => e.source ∈ id :: ids).filter
        (fun e => decide (e.source = id)) = g.edgesFrom id := by
      unfold edgesFrom
      rw [List.filter_filter]
      apply List.filter_congr
      intro e _
      by_cases hid : e.source = id <;> simp [hid]
    have hrest : (g.edges.filter fun e => e.source ∈ id :: ids).filter
        (fun e => !decide (e.source = id)) = g.edges.filter fun e => e.source ∈ ids := by
      rw [List.filter_filter]
      apply List.filter_congr
      intro e _
      by_cases hid : e.source = id <;> simp [hid, hnot]
    rw [hfirst, hrest] at hsplit
    rw [List.flatMap_cons]
    exact ((ih hnodup).append_left _).trans hsplit

/-- **Listing the edges by their sources only changes their order.** -/
theorem WellFormed.edgesInOrder_perm (h : g.WellFormed) : g.edgesInOrder.Perm g.edges := by
  have hall : (g.edges.filter fun e => e.source ∈ g.nodes.keys) = g.edges := by
    rw [List.filter_eq_self]
    intro e he
    exact decide_eq_true (h.source_mem e he)
  have hperm := flatMap_edgesFrom_perm (g := g) h.nodup_nodes
  rw [hall] at hperm
  exact hperm

/-- The edges that leave a node are the same, wherever edges are listed by their sources. -/
theorem filter_flatMap_edgesFrom {ids : List String} {id : String} (h : ids.Nodup)
    (hid : id ∈ ids) :
    (ids.flatMap (g.edgesFrom ·)).filter (fun e => e.source = id) = g.edgesFrom id := by
  have hfilter : ∀ other : String, (g.edgesFrom other).filter (fun e => e.source = id)
      = if other = id then g.edgesFrom id else [] := by
    intro other
    unfold edgesFrom
    rw [List.filter_filter]
    split
    · next heq =>
      subst heq
      simp
    · next hne =>
      rw [List.filter_eq_nil_iff]
      intro e _ he
      simp only [Bool.and_eq_true, decide_eq_true_eq] at he
      exact hne (he.2.symm.trans he.1)
  rw [List.filter_flatMap]
  simp only [hfilter]
  induction ids with
  | nil => cases hid
  | cons first ids ih =>
    obtain ⟨hnot, hnodup⟩ := List.nodup_cons.mp h
    rw [List.flatMap_cons]
    rcases List.mem_cons.mp hid with rfl | hid
    · have hnil : ids.flatMap (fun other => if other = id then g.edgesFrom id else []) = [] := by
        rw [List.flatMap_eq_nil_iff]
        intro other hother
        have hne : other ≠ id := by
          rintro rfl
          exact hnot hother
        exact if_neg hne
      rw [if_pos rfl, hnil, List.append_nil]
    · have hne : first ≠ id := fun heq => hnot (heq ▸ hid)
      rw [if_neg hne, List.nil_append]
      exact ih hnodup hid

/-- The graph with its edges listed by their sources. -/
def inOrder (g : Hierarchy) : Hierarchy := { g with edges := g.edgesInOrder }

/-- Listing the edges by their sources again changes nothing. -/
theorem WellFormed.edgesInOrder_inOrder (h : g.WellFormed) :
    g.inOrder.edgesInOrder = g.edgesInOrder := by
  unfold edgesInOrder
  apply List.flatMap_congr
  intro id hid
  exact filter_flatMap_edgesFrom h.nodup_nodes hid

theorem WellFormed.inOrder (h : g.WellFormed) : g.inOrder.WellFormed where
  nodup_nodes := h.nodup_nodes
  nodup_edges := (h.edgesInOrder_perm.map Edge.ends).nodup_iff.mpr h.nodup_edges
  source_mem e he := h.source_mem e (h.edgesInOrder_perm.mem_iff.mp he)
  target_mem e he := h.target_mem e (h.edgesInOrder_perm.mem_iff.mp he)

end Hierarchy
end ClassLineage
