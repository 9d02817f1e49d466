import ClassLineage.Hierarchy.Saved
import ClassLineage.Proofs.Firsts
import ClassLineage.Proofs.Hierarchy.Lineage

/-!
# The order in which declarations are read

The nodes of the graph stand in the order in which their names are first declared or, if they are
nowhere declared, first referred to; the edges in the order of the first references between their
names, each with the type of the last one.  To read all declarations again changes nothing.  Where
each name is declared once, their order does not matter, apart from how the names that are nowhere
declared are spelled.

## Main definitions

* `Hierarchy.undeclaredNames` — the names that are referred to and nowhere declared, as they are
  read.
* `Hierarchy.latest` — the last reference between the two names of a reference.
* `Hierarchy.flag?` — whether a node is external.

## Main results

* `Hierarchy.nodes_ofDeclarations`, `Hierarchy.edgesOf_eq` — the nodes and the edges in order.
* `Hierarchy.ofDeclarations_exact` — **exactly these nodes and edges are there.**
* `Hierarchy.ofDeclarations_perm` — **the order of declarations of different names does not
  matter.**
-/

namespace ClassLineage

/-- The two names of a reference, in normal form. -/
def Link.names (l : Link) : String × String := (l.source, l.target)

theorem Link.joins_iff_names {l other : Link} :
    l.joins other.source other.target = true ↔ l.names = other.names := by
  rw [Link.joins_iff, Link.names, Link.names, Prod.mk.injEq]

namespace Hierarchy

variable {ds ds' : List Declaration} {links : List Link} {a b : String}

/-! ### Nodes in order -/

/-- The names that declarations refer to, as they are read: those of the first declaration, its
parent before its interfaces and these before its traits, then those of the next one. -/
def referredNames (ds : List Declaration) : List String :=
  ds.flatMap fun d => d.references.map (·.2)

/-- Those of the names referred to that nothing declares. -/
def undeclaredNames (ds : List Declaration) : List String :=
  (referredNames ds).filter fun name =>
    !(ds.map fun d => Name.normalize d.name).contains (Name.normalize name)

/-- The entry of a name that nothing declares. -/
def undeclaredNode (name : String) : String × Entries Json := (nodeId name, externalAttributes name)

theorem externalNodes_eq (ds : List Declaration) :
    externalNodes ds = (referredNames ds).map undeclaredNode := by
  unfold externalNodes referredNames
  rw [List.map_flatMap]
  simp only [List.map_map]
  rfl

theorem nodeId_inj {m n : String} : nodeId m = nodeId n ↔ Name.normalize m = Name.normalize n := by
  rw [← nodeOf_normalize n, nodeId_eq_nodeOf]

/-- The first declarations of all names. -/
def firstDeclarations (ds : List Declaration) : List Declaration :=
  firstsBy (fun d => Name.normalize d.name) ds

theorem contains_keys_declared (ds : List Declaration) (name : String) :
    (Entries.keys ((firstDeclarations ds).map declaredNode)).contains (nodeId name)
      = (ds.map fun d => Name.normalize d.name).contains (Name.normalize name) := by
  rw [Bool.eq_iff_iff, List.contains_iff_mem, List.contains_iff_mem,
    ← mem_map_firstsBy (fun d : Declaration => Name.normalize d.name) ds]
  unfold Entries.keys firstDeclarations
  rw [List.map_map]
  simp only [List.mem_map, Function.comp_apply, declaredNode, nodeId_inj]

/-- **The nodes in order:** the names declared, each where it is declared first, and then those
referred to and nowhere declared, each as it is first referred to. -/
theorem nodes_ofDeclarations (ds : List Declaration) :
    (ofDeclarations ds).nodes
      = (firstDeclarations ds).map declaredNode
        ++ (firstsBy Name.normalize (undeclaredNames ds)).map undeclaredNode := by
  have hdeclared : Entries.putNewAll (ds.map declaredNode) []
      = (firstDeclarations ds).map declaredNode := by
    rw [Entries.putNewAll_eq, List.nil_append,
      firstsBy_map Prod.fst declaredNode (fun _ _ => nodeId_inj) ds]
    exact List.filter_eq_self.mpr fun _ _ => rfl
  have hreferred : firstsBy Prod.fst (externalNodes ds)
      = (firstsBy Name.normalize (referredNames ds)).map undeclaredNode := by
    rw [externalNodes_eq]
    exact firstsBy_map Prod.fst undeclaredNode (fun _ _ => nodeId_inj) _
  -- a name that is referred to gets a node of its own if no declaration has given it one
  have hnew : (firstsBy Name.normalize (referredNames ds)).filter
        (fun name => !(Entries.keys ((firstDeclarations ds).map declaredNode)).contains (nodeId name))
      = firstsBy Name.normalize (undeclaredNames ds) := by
    unfold undeclaredNames
    rw [firstsBy_filter Name.normalize
      (fun name => !(ds.map fun d => Name.normalize d.name).contains name) (referredNames ds)]
    simp only [contains_keys_declared]
  rw [ofDeclarations_eq]
  show Entries.putNewAll (externalNodes ds) (Entries.putNewAll (ds.map declaredNode) []) = _
  rw [Entries.putNewAll_eq, hdeclared, hreferred, List.filter_map, ← hnew]
  rfl

/-! ### Edges in order -/

/-- The last of the references between the two names of a reference. -/
def latest (links : List Link) (l : Link) : Link :=
  (links.findRev? (·.joins l.source l.target)).getD l

theorem latest_concat (links : List Link) (last l : Link) :
    latest (links ++ [last]) l = if last.names = l.names then last else latest links l := by
  unfold latest
  rw [List.findRev?_eq_find?_reverse, List.findRev?_eq_find?_reverse, List.reverse_append,
    List.reverse_singleton, List.singleton_append, List.find?_cons]
  simp only [← Link.joins_iff_names]
  cases last.joins l.source l.target <;> rfl

/-- An edge that is set in place of another one leaves the others alone. -/
theorem putEdge_of_mem {source target : String} {attributes : Entries Json} {edges : List Edge}
    (hnodup : (edges.map Edge.ends).Nodup) (h : (source, target) ∈ edges.map Edge.ends)
    (hset : ∀ e ∈ edges, attributes.putAll e.attributes = attributes) :
    putEdge source target attributes edges
      = edges.map fun e => if e.ends = (source, target) then ⟨source, target, attributes⟩ else e := by
  induction edges with
  | nil => cases h
  | cons first rest ih =>
    rw [List.map_cons, List.nodup_cons] at hnodup
    rw [putEdge, List.map_cons]
    by_cases hjoins : first.joins source target = true
    · have hends : first.ends = (source, target) := Edge.joins_iff.mp hjoins
      rw [if_pos hjoins, if_pos hends, hset first List.mem_cons_self]
      congr 1
      -- no other edge joins the two nodes
      rw [← List.map_id rest, List.map_map]
      apply List.map_congr_left
      intro e he
      have hne : e.ends ≠ (source, target) := by
        intro heq
        exact hnodup.1 (hends.trans heq.symm ▸ List.mem_map_of_mem he)
      exact (if_neg hne).symm
    · have hends : first.ends ≠ (source, target) := fun heq => hjoins (Edge.joins_iff.mpr heq)
      rw [if_neg hjoins, if_neg hends,
        ih hnodup.2 ((List.mem_cons.mp h).resolve_left (Ne.symm hends))
          fun e he => hset e (List.mem_cons_of_mem _ he)]

theorem names_latest (links : List Link) (l : Link) : (latest links l).names = l.names := by
  unfold latest
  cases hfind : links.findRev? (·.joins l.source l.target) with
  | none => rfl
  | some found =>
    rw [List.findRev?_eq_find?_reverse] at hfind
    exact Link.joins_iff_names.mp (List.find?_some hfind)

theorem ends_edge_eq_iff {l other : Link} :
    l.edge.ends = (nodeOf other.source, nodeOf other.target) ↔ l.names = other.names := by
  rw [Link.ends_edge, Link.names, Link.names, Prod.mk.injEq, Prod.mk.injEq, nodeOf_inj, nodeOf_inj]

/-- **The edges in order:** one for each two names of which one refers to the other, where it first
does, and of the type of its last reference. -/
theorem edgesOf_eq (links : List Link) :
    edgesOf links = (firstsBy Link.names links).map fun l => (latest links l).edge := by
  induction links using List.reverseRecOn with
  | nil => rfl
  | append_singleton links last ih =>
    rw [edgesOf_concat, setLink, firstsBy_concat]
    have hset : ∀ e ∈ edgesOf links,
        Entries.putAll [("type", Json.str last.relation.edgeType)] e.attributes
          = [("type", .str last.relation.edgeType)] := by
      intro e he
      obtain ⟨l, -, rfl⟩ := mem_edgesOf.mp he
      rfl
    have hends : (nodeOf last.source, nodeOf last.target) ∈ (edgesOf links).map Edge.ends
        ↔ last.names ∈ links.map Link.names := by
      rw [ih, List.map_map, ← mem_map_firstsBy Link.names links, List.mem_map, List.mem_map]
      apply exists_congr
      intro l
      apply and_congr_right
      intro _
      rw [Function.comp_apply, ends_edge_eq_iff, names_latest]
    by_cases hmem : last.names ∈ links.map Link.names
    · -- the edge is there, and takes the type of the last reference
      rw [if_pos hmem, putEdge_of_mem (nodup_edgesOf links) (hends.mpr hmem) hset, ih, List.map_map]
      apply List.map_congr_left
      intro l _
      rw [Function.comp_apply, latest_concat]
      simp only [ends_edge_eq_iff, names_latest]
      by_cases hnames : last.names = l.names
      · rw [if_pos hnames.symm, if_pos hnames, Link.edge]
      · rw [if_neg (Ne.symm hnames), if_neg hnames]
    · rw [if_neg hmem, putEdge_of_not_mem (fun h => hmem (hends.mp h)), List.map_append,
        List.map_cons, List.map_nil, latest_concat, if_pos rfl, ih]
      congr 1
      apply List.map_congr_left
      intro l hl
      rw [latest_concat, if_neg]
      intro heq
      exact hmem (heq ▸ List.mem_map_of_mem (firstsBy_subset hl))

theorem edgesOf_append_self (links : List Link) : edgesOf (links ++ links) = edgesOf links := by
  rw [edgesOf_eq, edgesOf_eq, firstsBy_append_self]
  apply List.map_congr_left
  intro l hl
  -- the last reference between two names is one of the second reading
  unfold latest
  rw [List.findRev?_eq_find?_reverse, List.findRev?_eq_find?_reverse, List.reverse_append,
    List.find?_append, Option.or_self]

/-! ### What the graph holds -/

/-- What a node says of whether it is external. -/
def flag? (g : Hierarchy) (id : String) : Option Json := (g.node? id).bind (·.find? "external")

/-- A name that is declared has a node with what is said of its first declaration. -/
theorem node?_of_first? {d : Declaration} (h : first? ds a = some d) :
    (ofDeclarations ds).node? (nodeOf a) = some (declaredAttributes d) := by
  rw [node?_ofDeclarations, h]
  rfl

/-- A node of a name that nothing declares tells how the name is spelled somewhere. -/
theorem node?_of_undeclared (hid : nodeOf a ∈ (ofDeclarations ds).nodes.keys)
    (h : first? ds a = none) :
    ∃ name, Name.normalize name = a
      ∧ (ofDeclarations ds).node? (nodeOf a) = some (externalAttributes name) := by
  rw [← hasNode_iff, hasNode, node?_ofDeclarations, h] at hid
  obtain ⟨attributes, hattributes⟩ := Option.isSome_iff_exists.mp hid
  obtain ⟨name, hname, rfl⟩ := exists_of_find?_externalNodes hattributes
  refine ⟨name, hname, ?_⟩
  rw [node?_ofDeclarations, h]
  exact hattributes

/-- A node is external if nothing declares its name. -/
theorem flag?_ofDeclarations (hid : nodeOf a ∈ (ofDeclarations ds).nodes.keys) :
    (ofDeclarations ds).flag? (nodeOf a) = some (.bool (first? ds a).isNone) := by
  unfold flag?
  cases hfirst : first? ds a with
  | some d =>
    rw [node?_of_first? hfirst]
    rfl
  | none =>
    obtain ⟨name, -, hnode⟩ := node?_of_undeclared hid hfirst
    rw [hnode]
    rfl

/-- A node that tells whether it is external is that of a name, and tells whether nothing declares
the name. -/
theorem exists_of_flag? {id : String} {external : Bool}
    (h : (ofDeclarations ds).flag? id = some (.bool external)) :
    ∃ a, id = nodeOf a ∧ nodeOf a ∈ (ofDeclarations ds).nodes.keys
      ∧ (first? ds a).isNone = external := by
  have hid : id ∈ (ofDeclarations ds).nodes.keys := by
    obtain ⟨attributes, hnode, -⟩ := Option.bind_eq_some_iff.mp h
    rw [← hasNode_iff, hasNode, hnode]
    rfl
  obtain ⟨a, rfl⟩ := exists_nodeOf hid
  rw [flag?_ofDeclarations hid] at h
  exact ⟨a, rfl, hid, Json.bool.inj (Option.some.inj h)⟩

theorem ofDeclarations_inOrder (ds : List Declaration) :
    ofDeclarations ds
      = ⟨.obj [],
          (firstDeclarations ds).map declaredNode
            ++ (firstsBy Name.normalize (undeclaredNames ds)).map undeclaredNode,
          (firstsBy Link.names (linksOf ds)).map fun l => (latest (linksOf ds) l).edge⟩ := by
  rw [← nodes_ofDeclarations, ← edgesOf_eq, ofDeclarations_eq]

/-- Reading all declarations again changes nothing. -/
theorem ofDeclarations_append_self (ds : List Declaration) :
    ofDeclarations (ds ++ ds) = ofDeclarations ds := by
  have hdeclared : firstDeclarations (ds ++ ds) = firstDeclarations ds := firstsBy_append_self _ ds
  have hundeclared : undeclaredNames (ds ++ ds) = undeclaredNames ds ++ undeclaredNames ds := by
    unfold undeclaredNames referredNames
    rw [List.flatMap_append, List.filter_append]
    simp
  have hlinks : linksOf (ds ++ ds) = linksOf ds ++ linksOf ds := List.flatMap_append
  rw [ofDeclarations_inOrder, hdeclared, hundeclared, firstsBy_append_self, hlinks, ← edgesOf_eq,
    edgesOf_append_self, edgesOf_eq, ← ofDeclarations_inOrder]

/-- What refers to something is declared, so that its node is not external. -/
theorem flag?_source {e : Edge} (he : e ∈ (ofDeclarations ds).edges) :
    (ofDeclarations ds).flag? e.source = some (.bool false) := by
  have hid := (wellFormed_ofDeclarations ds).source_mem e he
  rw [ofDeclarations_eq] at he
  obtain ⟨l, hl, rfl⟩ := mem_edgesOf.mp he
  obtain ⟨d, hd, hsource, -⟩ := mem_linksOf.mp (lastRelation?_eq_some hl)
  have hdeclared : (first? ds l.source).isNone = false := by
    rw [first?, Option.isNone_eq_false_iff, List.find?_isSome]
    exact ⟨d, hd, decide_eq_true hsource⟩
  rw [Link.edge] at hid ⊢
  rw [flag?_ofDeclarations hid, hdeclared]

/-- **Exactly these nodes and edges are there.**  The nodes are those of the names declared, in the
order of their first declarations and with what these say, and then those of the names that are
referred to and nowhere declared, in the order in which they are first referred to and spelled as
they are there.  There is one edge from a name to another if some declaration of the one refers to
the other, and its type is that of the last such reference.  So no edge leaves a node that is
external, and reading all declarations again changes nothing. -/
theorem ofDeclarations_exact (ds : List Declaration) :
    (ofDeclarations ds).nodes
        = (firstsBy (fun d => Name.normalize d.name) ds).map
            (fun d => (nodeOf (Name.normalize d.name), declaredAttributes d))
          ++ (firstsBy Name.normalize (undeclaredNames ds)).map
            (fun name => (nodeOf (Name.normalize name), externalAttributes name))
    ∧ ((ofDeclarations ds).edges.map Edge.ends).Nodup
    ∧ (∀ a b, (∃ e ∈ (ofDeclarations ds).edges, e.ends = (nodeOf a, nodeOf b))
        ↔ DirectlyRelated ds a b)
    ∧ (∀ e ∈ (ofDeclarations ds).edges, ∃ a b r, lastRelation? (linksOf ds) a b = some r
        ∧ e = ⟨nodeOf a, nodeOf b, [("type", .str r.edgeType)]⟩)
    ∧ (∀ e ∈ (ofDeclarations ds).edges,
        (ofDeclarations ds).flag? e.source = some (.bool false))
    ∧ (ofDeclarations (ds ++ ds)).toJson = (ofDeclarations ds).toJson := by
  refine ⟨nodes_ofDeclarations ds, (wellFormed_ofDeclarations ds).nodup_edges, ?_, ?_,
    fun e he => flag?_source he, by rw [ofDeclarations_append_self]⟩
  · intro a b
    rw [← exists_mem_linksOf, ← exists_lastRelation?, ofDeclarations_eq]
    constructor
    · rintro ⟨e, he, hends⟩
      obtain ⟨l, hl, rfl⟩ := mem_edgesOf.mp he
      rw [Link.ends_edge, Prod.mk.injEq, nodeOf_inj, nodeOf_inj] at hends
      obtain ⟨rfl, rfl⟩ := hends
      exact ⟨l.relation, hl⟩
    · rintro ⟨r, hr⟩
      exact ⟨(Link.mk a b r).edge, mem_edgesOf.mpr ⟨⟨a, b, r⟩, hr, rfl⟩, rfl⟩
  · intro e he
    rw [ofDeclarations_eq] at he
    obtain ⟨l, hl, rfl⟩ := mem_edgesOf.mp he
    exact ⟨l.source, l.target, l.relation, hl, rfl⟩

/-! ### Declarations in another order -/

/-- The declarations of a name in normal form. -/
def declarationsOf (ds : List Declaration) (a : String) : List Declaration :=
  ds.filter fun d => Name.normalize d.name = a

theorem first?_eq_head? : first? ds a = (declarationsOf ds a).head? :=
  List.head?_filter.symm

/-- The references of a name are those of its declarations. -/
theorem linksOf_declarationsOf :
    linksOf (declarationsOf ds a) = (linksOf ds).filter fun l => l.source = a := by
  unfold linksOf declarationsOf
  induction ds with
  | nil => rfl
  | cons d ds ih =>
    have hsource : ∀ l ∈ d.links, l.source = Name.normalize d.name :=
      fun l hl => (Declaration.mem_links.mp hl).1.symm
    rw [List.flatMap_cons, List.filter_append, ← ih, List.filter_cons]
    by_cases hd : Name.normalize d.name = a
    · have hall : d.links.filter (fun l => l.source = a) = d.links := by
        rw [List.filter_eq_self]
        intro l hl
        exact decide_eq_true ((hsource l hl).trans hd)
      rw [if_pos (decide_eq_true hd), List.flatMap_cons, hall]
    · have hnone : d.links.filter (fun l => l.source = a) = [] := by
        rw [List.filter_eq_nil_iff]
        intro l hl heq
        exact hd ((hsource l hl).symm.trans (of_decide_eq_true heq))
      rw [if_neg (by simpa using hd), hnone, List.nil_append]

/-- The last reference from a name to another is one of its declarations. -/
theorem lastRelation?_declarationsOf :
    lastRelation? (linksOf (declarationsOf ds a)) a b = lastRelation? (linksOf ds) a b := by
  rw [linksOf_declarationsOf]
  unfold lastRelation?
  rw [List.findRev?_eq_find?_reverse, List.findRev?_eq_find?_reverse, ← List.filter_reverse,
    List.find?_filter]
  congr 2
  ext l
  unfold Link.joins
  by_cases hl : l.source = a <;> simp [hl]

/-- Where each name is declared once, the declarations of a name do not depend on the order. -/
theorem declarationsOf_perm (hdistinct : (ds.map fun d => Name.normalize d.name).Nodup)
    (hperm : ds'.Perm ds) (a : String) : declarationsOf ds' a = declarationsOf ds a := by
  have halone : ∀ {l : List Declaration}, (l.map fun d => Name.normalize d.name).Nodup →
      (declarationsOf l a).Pairwise fun _ _ => False := by
    intro l hl
    unfold declarationsOf
    rw [List.pairwise_filter]
    apply (List.pairwise_map.mp hl).imp
    intro d e hne hd he
    exact hne ((of_decide_eq_true hd).trans (of_decide_eq_true he).symm)
  apply (hperm.filter _).eq_of_pairwise (fun _ _ _ _ h => h.elim) (halone _) (halone hdistinct)
  exact (hperm.map _).nodup_iff.mpr hdistinct

section Perm

variable (hdistinct : (ds.map fun d => Name.normalize d.name).Nodup) (hperm : ds'.Perm ds)

include hperm in
theorem mem_nodes_perm {id : String} :
    id ∈ (ofDeclarations ds').nodes.keys ↔ id ∈ (ofDeclarations ds).nodes.keys := by
  rw [mem_nodes_iff, mem_nodes_iff]
  simp only [hperm.mem_iff]

include hdistinct hperm

theorem first?_perm (a : String) : first? ds' a = first? ds a := by
  rw [first?_eq_head?, first?_eq_head?, declarationsOf_perm hdistinct hperm]

theorem mem_edges_perm {e : Edge} :
    e ∈ (ofDeclarations ds').edges ↔ e ∈ (ofDeclarations ds).edges := by
  have hlast : ∀ a b, lastRelation? (linksOf ds') a b = lastRelation? (linksOf ds) a b := by
    intro a b
    rw [← lastRelation?_declarationsOf, declarationsOf_perm hdistinct hperm,
      lastRelation?_declarationsOf]
  rw [ofDeclarations_eq, ofDeclarations_eq]
  simp only [mem_edgesOf, hlast]

/-- The same nodes are external. -/
theorem flag?_perm (id : String) : (ofDeclarations ds').flag? id = (ofDeclarations ds).flag? id := by
  by_cases hid : id ∈ (ofDeclarations ds).nodes.keys
  · obtain ⟨a, rfl⟩ := exists_nodeOf hid
    rw [flag?_ofDeclarations hid, flag?_ofDeclarations ((mem_nodes_perm hperm).mpr hid),
      first?_perm hdistinct hperm]
  · unfold flag? node?
    rw [Entries.find?_eq_none_iff.mpr hid,
      Entries.find?_eq_none_iff.mpr fun h => hid ((mem_nodes_perm hperm).mp h)]

/-- Nodes that are not external have the same attributes. -/
theorem node?_perm {id : String} (h : (ofDeclarations ds).flag? id = some (.bool false)) :
    (ofDeclarations ds').node? id = (ofDeclarations ds).node? id := by
  obtain ⟨a, rfl, -, hdeclared⟩ := exists_of_flag? h
  obtain ⟨d, hd⟩ := Option.isSome_iff_exists.mp (Option.isNone_eq_false_iff.mp hdeclared)
  rw [node?_of_first? hd, node?_of_first? ((first?_perm hdistinct hperm a).trans hd)]

/-- External nodes may differ in how their names are spelled. -/
theorem exists_spellings {id : String} (h : (ofDeclarations ds).flag? id = some (.bool true)) :
    ∃ name name', Name.normalize name' = Name.normalize name
      ∧ (ofDeclarations ds').node? id = some (externalAttributes name')
      ∧ (ofDeclarations ds).node? id = some (externalAttributes name) := by
  obtain ⟨a, rfl, hid, hundeclared⟩ := exists_of_flag? h
  have hnone := Option.isNone_iff_eq_none.mp hundeclared
  obtain ⟨name, rfl, hnode⟩ := node?_of_undeclared hid hnone
  obtain ⟨name', hname', hnode'⟩ := node?_of_undeclared ((mem_nodes_perm hperm).mpr hid)
    ((first?_perm hdistinct hperm _).trans hnone)
  exact ⟨name, name', hname', hnode', hnode⟩

/-- Each name has the same descendants. -/
theorem exists_descendants_perm (name : String) (types : List String) :
    ∃ names, (ofDeclarations ds').descendants name types = .ok names
      ∧ (ofDeclarations ds).descendants name types = .ok names := by
  have hg := isComplete_ofDeclarations ds
  obtain ⟨names, hnames, -⟩ := hg.descendants name types
  refine ⟨names, ?_, hnames⟩
  rw [← hnames]
  apply hg.descendants_congr (isComplete_ofDeclarations ds')
  · intro types a b
    unfold Leads
    simp only [mem_edges_perm hdistinct hperm]
  · intro id hid
    obtain ⟨a, rfl⟩ := exists_nodeOf hid
    rw [declaredName?_ofDeclarations hid,
      declaredName?_ofDeclarations ((mem_nodes_perm hperm).mpr hid), first?_perm hdistinct hperm]

end Perm

/-- **The order of declarations of different names does not matter.**  In whatever order they are
read, the graph has the same nodes, of which the same are external; those that are not have the same
attributes, while the others may differ in how their names are spelled.  It has the same edges of the
same types, and so each name has the same descendants in the same order. -/
theorem ofDeclarations_perm (hdistinct : (ds.map fun d => Name.normalize d.name).Nodup)
    (hperm : ds'.Perm ds) :
    (∀ id, id ∈ (ofDeclarations ds').nodes.keys ↔ id ∈ (ofDeclarations ds).nodes.keys)
    ∧ (∀ id, (ofDeclarations ds').flag? id = (ofDeclarations ds).flag? id)
    ∧ (∀ id, (ofDeclarations ds).flag? id = some (.bool false) →
        (ofDeclarations ds').node? id = (ofDeclarations ds).node? id)
    ∧ (∀ id, (ofDeclarations ds).flag? id = some (.bool true) →
        ∃ name name', Name.normalize name' = Name.normalize name
          ∧ (ofDeclarations ds').node? id = some (externalAttributes name')
          ∧ (ofDeclarations ds).node? id = some (externalAttributes name))
    ∧ (∀ e, e ∈ (ofDeclarations ds').edges ↔ e ∈ (ofDeclarations ds).edges)
    ∧ ∀ name types, ∃ names, (ofDeclarations ds').descendants name types = .ok names
        ∧ (ofDeclarations ds).descendants name types = .ok names := by
  refine ⟨fun id => mem_nodes_perm hperm, flag?_perm hdistinct hperm, ?_, ?_, ?_,
    exists_descendants_perm hdistinct hperm⟩
  · intro id hflag
    exact node?_perm hdistinct hperm hflag
  · intro id hflag
    exact exists_spellings hdistinct hperm hflag
  · intro e
    exact mem_edges_perm hdistinct hperm

/-- Two classes that extend a class of another library, which they spell in two ways. -/
def twoSpellings : List Declaration :=
  [⟨"App\\A", "A.php", "App", "A", "class", some "Lib\\Base", [], []⟩,
    ⟨"App\\B", "B.php", "App", "B", "class", some "lib\\BASE", ["app\\a"], []⟩]

/-- Only the spelling of the other library's class depends on which of the two is read first. -/
theorem ofDeclarations_perm_twoSpellings :
    (twoSpellings.map fun d => Name.normalize d.name).Nodup
    ∧ twoSpellings.reverse.Perm twoSpellings
    ∧ (∃ name name', Name.normalize name' = Name.normalize name
        ∧ (ofDeclarations twoSpellings.reverse).node? (nodeOf "lib\\base")
          = some (externalAttributes name')
        ∧ (ofDeclarations twoSpellings).node? (nodeOf "lib\\base") = some (externalAttributes name))
    ∧ ∃ names, (ofDeclarations twoSpellings.reverse).descendants "\\LIB\\Base" [] = .ok names
        ∧ (ofDeclarations twoSpellings).descendants "\\LIB\\Base" [] = .ok names := by
  have hdistinct : (twoSpellings.map fun d => Name.normalize d.name).Nodup := by decide +kernel
  have hperm : twoSpellings.reverse.Perm twoSpellings := List.reverse_perm _
  have hid : nodeOf "lib\\base" ∈ (ofDeclarations twoSpellings).nodes.keys := by decide +kernel
  have hexternal : (first? twoSpellings "lib\\base").isNone = true := by decide +kernel
  have hflag := flag?_ofDeclarations hid
  rw [hexternal] at hflag
  obtain ⟨-, -, -, hspelled, -, hdescend⟩ := ofDeclarations_perm hdistinct hperm
  exact ⟨hdistinct, hperm, hspelled _ hflag, hdescend _ _⟩

end Hierarchy
end ClassLineage
