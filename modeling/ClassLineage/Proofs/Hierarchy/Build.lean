import ClassLineage.Hierarchy.Build
import ClassLineage.Proofs.Hierarchy.Descendants

/-!
# What the graph of declarations holds

The declarations are read twice.  The first reading gives each declared name its node, the second
one a node to each name that is referred to, if it has none yet, and an edge to each reference; so
of the declarations of a name the first one counts, and of the references between two names the
last one.

## Main definitions

* `Hierarchy.nodeOf` — the node of a name in normal form.
* `Link` — a reference between two names in normal form.
* `Hierarchy.linksOf` — the references of a list of declarations, as they are read.
* `Hierarchy.lastRelation?` — the relation of the last reference between two names.
* `Hierarchy.first?` — the first declaration of a name.

## Main results

* `Hierarchy.ofDeclarations_eq` — **the nodes and the edges of the graph of declarations.**
* `Hierarchy.mem_edgesOf` — its edges are the last references between two names.
* `Hierarchy.declaredName?_ofDeclarations` — the full name that its nodes tell.
* `Hierarchy.isComplete_ofDeclarations` — **the graph of declarations is complete.**
* `Hierarchy.isDescendant_iff` — descendants in terms of the declarations.
-/

namespace ClassLineage

namespace Hierarchy

/-- The node that stands for a name in normal form. -/
def nodeOf (name : String) : String := "class:" ++ name

theorem nodeOf_normalize (name : String) : nodeOf (Name.normalize name) = nodeId name := rfl

@[simp] theorem nodeOf_inj {a b : String} : nodeOf a = nodeOf b ↔ a = b := by
  unfold nodeOf
  exact String.append_right_inj _

@[simp] theorem nodeId_eq_nodeOf {name a : String} :
    nodeId name = nodeOf a ↔ Name.normalize name = a := by
  rw [← nodeOf_normalize, nodeOf_inj]

end Hierarchy

open Hierarchy

/-! ### References -/

/-- A reference between two names in normal form. -/
structure Link where
  /-- The name that refers. -/
  source : String
  /-- The name that is referred to. -/
  target : String
  /-- The relation by which it is. -/
  relation : Relation
deriving DecidableEq

namespace Link

/-- The reference is one between two given names. -/
def joins (source target : String) (l : Link) : Bool := l.source = source && l.target = target

/-- The edge of a reference. -/
def edge (l : Link) : Edge :=
  ⟨nodeOf l.source, nodeOf l.target, [("type", .str l.relation.edgeType)]⟩

theorem joins_iff {source target : String} {l : Link} :
    l.joins source target = true ↔ l.source = source ∧ l.target = target := by
  unfold joins
  simp

theorem type?_edge (l : Link) : l.edge.type? = some (.str l.relation.edgeType) := rfl

theorem ends_edge (l : Link) : l.edge.ends = (nodeOf l.source, nodeOf l.target) := rfl

theorem joins_edge {l other : Link} :
    l.edge.joins (nodeOf other.source) (nodeOf other.target)
      = l.joins other.source other.target := by
  rw [Bool.eq_iff_iff, Edge.joins_iff, ends_edge, joins_iff, Prod.mk.injEq, nodeOf_inj, nodeOf_inj]

end Link

/-- The references of a declaration between names in normal form, as they are read. -/
def Declaration.links (d : Declaration) : List Link :=
  d.references.map fun r => ⟨Name.normalize d.name, Name.normalize r.2, r.1⟩

theorem Declaration.mem_links {d : Declaration} {l : Link} :
    l ∈ d.links ↔ Name.normalize d.name = l.source
      ∧ ∃ name ∈ d.related l.relation, Name.normalize name = l.target := by
  unfold links references
  simp only [List.mem_map, List.mem_flatMap]
  constructor
  · rintro ⟨_, ⟨r, -, name, hname, rfl⟩, rfl⟩
    exact ⟨rfl, name, hname, rfl⟩
  · rintro ⟨hsource, name, hname, htarget⟩
    refine ⟨(l.relation, name), ⟨l.relation, ?_, name, hname, rfl⟩, ?_⟩
    · cases l.relation <;> simp [Relation.all]
    · rw [hsource, htarget]

namespace Hierarchy

variable {ds : List Declaration} {links : List Link} {a b : String}

/-- The references of a list of declarations, as they are read. -/
def linksOf (ds : List Declaration) : List Link := ds.flatMap Declaration.links

/-- The relation of the last reference from a name to another, both in normal form. -/
def lastRelation? (links : List Link) (a b : String) : Option Relation :=
  (links.findRev? (·.joins a b)).map (·.relation)

/-- The first declaration of a name in normal form. -/
def first? (ds : List Declaration) (a : String) : Option Declaration :=
  ds.find? fun d => Name.normalize d.name = a

theorem lastRelation?_concat (links : List Link) (l : Link) (a b : String) :
    lastRelation? (links ++ [l]) a b
      = if l.joins a b then some l.relation else lastRelation? links a b := by
  unfold lastRelation?
  rw [List.findRev?_eq_find?_reverse, List.findRev?_eq_find?_reverse, List.reverse_append,
    List.reverse_singleton, List.singleton_append, List.find?_cons]
  cases l.joins a b <;> rfl

theorem lastRelation?_eq_some {r : Relation} (h : lastRelation? links a b = some r) :
    ⟨a, b, r⟩ ∈ links := by
  unfold lastRelation? at h
  rw [List.findRev?_eq_find?_reverse] at h
  obtain ⟨l, hl, rfl⟩ := Option.map_eq_some_iff.mp h
  obtain ⟨rfl, rfl⟩ := Link.joins_iff.mp (List.find?_some hl)
  exact List.mem_reverse.mp (List.mem_of_find?_eq_some hl)

/-- Between two names there is a last reference if there is one. -/
theorem exists_lastRelation? :
    (∃ r, lastRelation? links a b = some r) ↔ ∃ r, ⟨a, b, r⟩ ∈ links := by
  constructor
  · rintro ⟨r, hr⟩
    exact ⟨r, lastRelation?_eq_some hr⟩
  · rintro ⟨r, hmem⟩
    unfold lastRelation?
    rw [← Option.isSome_iff_exists, Option.isSome_map, List.findRev?_eq_find?_reverse,
      List.find?_isSome]
    exact ⟨_, List.mem_reverse.mpr hmem, Link.joins_iff.mpr ⟨rfl, rfl⟩⟩

theorem mem_linksOf {l : Link} :
    l ∈ linksOf ds ↔ ∃ d ∈ ds, Name.normalize d.name = l.source
      ∧ ∃ name ∈ d.related l.relation, Name.normalize name = l.target := by
  unfold linksOf
  simp only [List.mem_flatMap, Declaration.mem_links]

/-! ### Edges -/

/-- A list of edges with that of a reference set. -/
def setLink (edges : List Edge) (l : Link) : List Edge :=
  putEdge (nodeOf l.source) (nodeOf l.target) [("type", .str l.relation.edgeType)] edges

/-- The edges of a list of references. -/
def edgesOf (links : List Link) : List Edge := links.foldl setLink []

theorem edgesOf_concat (links : List Link) (l : Link) :
    edgesOf (links ++ [l]) = setLink (edgesOf links) l := by
  unfold edgesOf
  rw [List.foldl_append]
  rfl

theorem nodup_edgesOf (links : List Link) : ((edgesOf links).map Edge.ends).Nodup := by
  induction links using List.reverseRecOn with
  | nil => exact List.nodup_nil
  | append_singleton links l ih =>
    rw [edgesOf_concat]
    exact nodup_ends_putEdge ih

/-- **The edges are the last references between two names.** -/
theorem mem_edgesOf {e : Edge} :
    e ∈ edgesOf links ↔ ∃ l : Link, lastRelation? links l.source l.target = some l.relation
      ∧ l.edge = e := by
  induction links using List.reverseRecOn generalizing e with
  | nil => simp [edgesOf, lastRelation?]
  | append_singleton links last ih =>
    -- an edge has a type and nothing else, so that setting it anew leaves nothing behind
    have hset : ∀ e ∈ edgesOf links,
        Entries.putAll [("type", Json.str last.relation.edgeType)] e.attributes
          = [("type", .str last.relation.edgeType)] := by
      intro e he
      obtain ⟨l, -, rfl⟩ := ih.mp he
      rfl
    rw [edgesOf_concat, setLink, mem_putEdge (nodup_edgesOf links) hset, ih]
    constructor
    · rintro (rfl | ⟨⟨l, hl, rfl⟩, hjoins⟩)
      · refine ⟨last, ?_, rfl⟩
        rw [lastRelation?_concat, if_pos (Link.joins_iff.mpr ⟨rfl, rfl⟩)]
      · refine ⟨l, ?_, rfl⟩
        have hnot : last.joins l.source l.target = false := by
          rw [Link.joins_edge] at hjoins
          rw [Bool.eq_false_iff, Ne, Link.joins_iff] at hjoins ⊢
          rintro ⟨hsource, htarget⟩
          exact hjoins ⟨hsource.symm, htarget.symm⟩
        rw [lastRelation?_concat, hnot]
        exact hl
    · rintro ⟨l, hl, rfl⟩
      rw [lastRelation?_concat] at hl
      by_cases hjoins : last.joins l.source l.target = true
      · rw [if_pos hjoins, Option.some.injEq] at hl
        obtain ⟨hsource, htarget⟩ := Link.joins_iff.mp hjoins
        left
        rw [Link.edge, hsource, htarget, hl]
      · rw [if_neg hjoins] at hl
        right
        refine ⟨⟨l, hl, rfl⟩, ?_⟩
        rw [Link.joins_edge, Bool.eq_false_iff, Ne, Link.joins_iff]
        rintro ⟨hsource, htarget⟩
        exact hjoins (Link.joins_iff.mpr ⟨hsource.symm, htarget.symm⟩)

/-! ### Nodes -/

theorem ensureNode_eq (id : String) (attributes : Entries Json) (g : Hierarchy) :
    g.ensureNode id attributes = { g with nodes := g.nodes.putNew id attributes } := by
  unfold ensureNode hasNode node? Entries.putNew
  split <;> rfl

/-- Adding a node that is there changes nothing. -/
theorem ensureNode_of_mem {id : String} {g : Hierarchy} (h : id ∈ g.nodes.keys)
    (attributes : Entries Json) : g.ensureNode id attributes = g := if_pos (hasNode_iff.mpr h)

/-- The entry of a declaration among the nodes. -/
def declaredNode (d : Declaration) : String × Entries Json := (nodeId d.name, declaredAttributes d)

/-- The entry of a name that is referred to, if nothing declares it. -/
def externalNode (reference : Relation × String) : String × Entries Json :=
  (nodeId reference.2, externalAttributes reference.2)

/-- The entries that references call for, as they are read. -/
def externalNodes (ds : List Declaration) : Entries (Entries Json) :=
  ds.flatMap fun d => d.references.map externalNode

theorem foldl_declare (g : Hierarchy) (ds : List Declaration) :
    ds.foldl declare g = { g with nodes := Entries.putNewAll (ds.map declaredNode) g.nodes } := by
  induction ds generalizing g with
  | nil => rfl
  | cons d ds ih =>
    rw [List.foldl_cons, ih, declare, ensureNode_eq]
    rfl

/-- A reference from a node that is there adds the node that it leads to, and its edge. -/
theorem refer_eq {g : Hierarchy} {source : String} (h : nodeOf source ∈ g.nodes.keys)
    (reference : Relation × String) :
    refer (nodeOf source) g reference
      = { g with
          nodes := g.nodes.putNew (nodeId reference.2) (externalAttributes reference.2)
          edges := setLink g.edges ⟨source, Name.normalize reference.2, reference.1⟩ } := by
  have hnew := ensureNode_eq (nodeId reference.2) (externalAttributes reference.2) g
  have hsource : nodeOf source
      ∈ (g.ensureNode (nodeId reference.2) (externalAttributes reference.2)).nodes.keys := by
    rw [hnew]
    exact Entries.mem_keys_putNew.mpr (Or.inl h)
  have htarget : nodeId reference.2
      ∈ (g.ensureNode (nodeId reference.2) (externalAttributes reference.2)).nodes.keys := by
    rw [hnew]
    exact Entries.mem_keys_putNew.mpr (Or.inr rfl)
  unfold refer addEdge
  simp only [ensureNode_of_mem hsource, ensureNode_of_mem htarget]
  rw [hnew]
  rfl

theorem foldl_refer {g : Hierarchy} {source : String} (h : nodeOf source ∈ g.nodes.keys)
    (references : List (Relation × String)) :
    references.foldl (refer (nodeOf source)) g
      = { g with
          nodes := Entries.putNewAll (references.map externalNode) g.nodes
          edges := (references.map fun r => Link.mk source (Name.normalize r.2) r.1).foldl
            setLink g.edges } := by
  induction references generalizing g with
  | nil => rfl
  | cons r references ih =>
    rw [List.foldl_cons, refer_eq h, ih (Entries.mem_keys_putNew.mpr (Or.inl h))]
    rfl

/-- Once all declarations have their nodes, references add the missing ones, and their edges. -/
theorem foldl_referAll {g : Hierarchy} (h : ∀ d ∈ ds, nodeId d.name ∈ g.nodes.keys) :
    ds.foldl referAll g
      = { g with
          nodes := Entries.putNewAll (externalNodes ds) g.nodes
          edges := (linksOf ds).foldl setLink g.edges } := by
  induction ds generalizing g with
  | nil => rfl
  | cons d ds ih =>
    have hd : nodeOf (Name.normalize d.name) ∈ g.nodes.keys := h d List.mem_cons_self
    have hstep : referAll g d
        = { g with
            nodes := Entries.putNewAll (d.references.map externalNode) g.nodes
            edges := d.links.foldl setLink g.edges } := foldl_refer hd d.references
    rw [List.foldl_cons, hstep, ih]
    · simp only [externalNodes, linksOf, Entries.putNewAll, List.flatMap_cons, List.foldl_append]
    · intro d' hd'
      exact Entries.mem_keys_putNewAll.mpr (Or.inl (h d' (List.mem_cons_of_mem _ hd')))

/-! ### The graph -/

/-- **The graph of declarations:** its nodes are those declared, and then those that are only
referred to; its edges are those of the references. -/
theorem ofDeclarations_eq (ds : List Declaration) :
    ofDeclarations ds
      = ⟨.obj [], Entries.putNewAll (externalNodes ds)
          (Entries.putNewAll (ds.map declaredNode) []), edgesOf (linksOf ds)⟩ := by
  unfold ofDeclarations
  rw [foldl_declare, foldl_referAll]
  · rfl
  · intro d hd
    apply Entries.mem_keys_putNewAll.mpr
    right
    exact List.mem_map.mpr ⟨_, List.mem_map_of_mem hd, rfl⟩

theorem find?_declaredNodes :
    Entries.find? (nodeOf a) (ds.map declaredNode) = (first? ds a).map declaredAttributes := by
  unfold first?
  induction ds with
  | nil => rfl
  | cons d ds ih =>
    rw [List.map_cons, Entries.find?_cons, List.find?_cons]
    by_cases hd : Name.normalize d.name = a
    · simp [declaredNode, hd]
    · simp [declaredNode, hd, ih]

/-- Of the declarations of a name the first one counts, and references add only those that have
none. -/
theorem node?_ofDeclarations :
    (ofDeclarations ds).node? (nodeOf a)
      = ((first? ds a).map declaredAttributes).or
          (Entries.find? (nodeOf a) (externalNodes ds)) := by
  unfold node?
  rw [ofDeclarations_eq, Entries.find?_putNewAll, Entries.find?_putNewAll, find?_declaredNodes]
  rfl

/-- A node that references call for tells how its name is spelled in one of them. -/
theorem exists_of_find?_externalNodes {attributes : Entries Json}
    (h : Entries.find? (nodeOf a) (externalNodes ds) = some attributes) :
    ∃ name, Name.normalize name = a ∧ attributes = externalAttributes name := by
  have hmem := Entries.mem_of_find? h
  unfold externalNodes at hmem
  obtain ⟨d, -, hmem⟩ := List.mem_flatMap.mp hmem
  obtain ⟨reference, -, hnode⟩ := List.mem_map.mp hmem
  obtain ⟨hid, rfl⟩ := Prod.mk.inj hnode
  exact ⟨reference.2, nodeId_eq_nodeOf.mp hid, rfl⟩

theorem mem_nodes_iff {id : String} :
    id ∈ (ofDeclarations ds).nodes.keys ↔ (∃ d ∈ ds, nodeId d.name = id)
      ∨ ∃ d ∈ ds, ∃ r, ∃ name ∈ d.related r, nodeId name = id := by
  rw [ofDeclarations_eq, Entries.mem_keys_putNewAll, Entries.mem_keys_putNewAll]
  unfold Entries.keys externalNodes Declaration.references
  constructor
  · intro h
    rcases h with (h | h) | h
    · cases h
    · left
      simpa [declaredNode] using h
    · right
      simp only [List.mem_map, List.mem_flatMap] at h
      obtain ⟨_, ⟨d, hd, _, ⟨r, -, name, hname, rfl⟩, rfl⟩, rfl⟩ := h
      exact ⟨d, hd, r, name, hname, rfl⟩
  · intro h
    rcases h with ⟨d, hd, rfl⟩ | ⟨d, hd, r, name, hname, rfl⟩
    · left
      right
      exact List.mem_map.mpr ⟨_, List.mem_map_of_mem hd, rfl⟩
    · right
      simp only [List.mem_map, List.mem_flatMap]
      refine ⟨_, ⟨d, hd, _, ⟨r, ?_, name, hname, rfl⟩, rfl⟩, rfl⟩
      cases r <;> simp [Relation.all]

/-- Each node stands for a name in normal form. -/
theorem exists_nodeOf {id : String} (h : id ∈ (ofDeclarations ds).nodes.keys) :
    ∃ a, id = nodeOf a := by
  rcases mem_nodes_iff.mp h with ⟨d, -, rfl⟩ | ⟨d, -, r, name, -, rfl⟩
  · exact ⟨_, (nodeOf_normalize d.name).symm⟩
  · exact ⟨_, (nodeOf_normalize name).symm⟩

theorem wellFormed_ofDeclarations (ds : List Declaration) : (ofDeclarations ds).WellFormed where
  nodup_nodes := by
    rw [ofDeclarations_eq]
    exact Entries.nodup_keys_putNewAll (Entries.nodup_keys_putNewAll List.nodup_nil)
  nodup_edges := by
    rw [ofDeclarations_eq]
    exact nodup_edgesOf _
  source_mem := by
    intro e he
    rw [ofDeclarations_eq] at he
    obtain ⟨l, hl, rfl⟩ := mem_edgesOf.mp he
    obtain ⟨d, hd, hsource, -⟩ := mem_linksOf.mp (lastRelation?_eq_some hl)
    exact mem_nodes_iff.mpr (Or.inl ⟨d, hd, by simpa [Link.edge] using hsource⟩)
  target_mem := by
    intro e he
    rw [ofDeclarations_eq] at he
    obtain ⟨l, hl, rfl⟩ := mem_edgesOf.mp he
    obtain ⟨d, hd, -, name, hname, htarget⟩ := mem_linksOf.mp (lastRelation?_eq_some hl)
    refine mem_nodes_iff.mpr (Or.inr ⟨d, hd, l.relation, name, hname, ?_⟩)
    simpa [Link.edge] using htarget

/-- **A node tells the full name of its first declaration,** and none if nothing declares it. -/
theorem declaredName?_ofDeclarations (h : nodeOf a ∈ (ofDeclarations ds).nodes.keys) :
    (ofDeclarations ds).declaredName? (nodeOf a) = .ok ((first? ds a).map (·.name)) := by
  rw [← hasNode_iff, hasNode, node?_ofDeclarations] at h
  unfold declaredName?
  rw [node?_ofDeclarations]
  cases hfirst : first? ds a with
  | some d => rfl
  | none =>
    rw [hfirst] at h
    obtain ⟨attributes, hattributes⟩ := Option.isSome_iff_exists.mp h
    obtain ⟨name, -, rfl⟩ := exists_of_find?_externalNodes hattributes
    rw [hattributes]
    rfl

theorem normalize_of_first? {d : Declaration} (h : first? ds a = some d) :
    Name.normalize d.name = a := by
  unfold first? at h
  simpa using List.find?_some h

/-- **The graph of declarations is complete.** -/
theorem isComplete_ofDeclarations (ds : List Declaration) : (ofDeclarations ds).IsComplete where
  toWellFormed := wellFormed_ofDeclarations ds
  typed := by
    intro e he
    rw [ofDeclarations_eq] at he
    obtain ⟨l, -, rfl⟩ := mem_edgesOf.mp he
    exact ⟨_, l.type?_edge⟩
  named := by
    intro id hid
    obtain ⟨a, rfl⟩ := exists_nodeOf hid
    refine ⟨_, declaredName?_ofDeclarations hid, ?_⟩
    intro full hfull
    obtain ⟨d, hd, rfl⟩ := Option.map_eq_some_iff.mp hfull
    exact nodeId_eq_nodeOf.mpr (normalize_of_first? hd)

/-! ### Chains -/

/-- The last reference from a name to another one, both in normal form, makes an edge of one of the
types. -/
def Refers (types : List String) (links : List Link) (a b : String) : Prop :=
  ∃ r, lastRelation? links a b = some r ∧ r.edgeType ∈ types

variable {types : List String}

theorem leads_iff {id other : String} :
    (ofDeclarations ds).Leads types id other
      ↔ ∃ a b, id = nodeOf a ∧ other = nodeOf b ∧ Refers types (linksOf ds) a b := by
  unfold Leads Refers
  rw [ofDeclarations_eq]
  constructor
  · rintro ⟨e, he, hends, type, htype, hedge⟩
    obtain ⟨l, hl, rfl⟩ := mem_edgesOf.mp he
    obtain ⟨rfl, rfl⟩ := Prod.mk.inj hends
    rw [Link.type?_edge, Option.some.injEq, Json.str.injEq] at hedge
    exact ⟨l.source, l.target, rfl, rfl, l.relation, hl, hedge ▸ htype⟩
  · rintro ⟨a, b, rfl, rfl, r, hr, htype⟩
    exact ⟨(Link.mk a b r).edge, mem_edgesOf.mpr ⟨⟨a, b, r⟩, hr, rfl⟩, rfl, r.edgeType, htype, rfl⟩

/-- A chain of edges is a chain of references. -/
theorem chain_iff {id : String} :
    Relation.TransGen ((ofDeclarations ds).Leads types) id (nodeOf b)
      ↔ ∃ a, id = nodeOf a ∧ Relation.TransGen (Refers types (linksOf ds)) a b := by
  constructor
  · intro h
    induction h using Relation.TransGen.head_induction_on with
    | single hlead =>
      obtain ⟨a, b', rfl, hb, hrefers⟩ := leads_iff.mp hlead
      obtain rfl := nodeOf_inj.mp hb
      exact ⟨a, rfl, .single hrefers⟩
    | head hlead _ ih =>
      obtain ⟨a, c, rfl, rfl, hrefers⟩ := leads_iff.mp hlead
      obtain ⟨c', hc, hchain⟩ := ih
      obtain rfl := nodeOf_inj.mp hc
      exact ⟨a, rfl, .head hrefers hchain⟩
  · rintro ⟨a, rfl, hchain⟩
    apply hchain.lift nodeOf
    intro x y hrefers
    exact leads_iff.mpr ⟨x, y, rfl, rfl, hrefers⟩

/-- What refers to something is declared. -/
theorem exists_first?_of_chain (h : Relation.TransGen (Refers types (linksOf ds)) a b) :
    ∃ d, first? ds a = some d := by
  obtain ⟨c, ⟨r, hr, -⟩, -⟩ := Relation.TransGen.head'_iff.mp h
  obtain ⟨d, hd, hname, -⟩ := mem_linksOf.mp (lastRelation?_eq_some hr)
  unfold first?
  rw [← Option.isSome_iff_exists, List.find?_isSome]
  exact ⟨d, hd, decide_eq_true hname⟩

/-- **A descendant of a name is another name, spelled as where it is declared first, from which a
chain of references leads to the name.** -/
theorem isDescendant_iff {of name : String} :
    (ofDeclarations ds).IsDescendant types of name
      ↔ (first? ds (Name.normalize name)).map (·.name) = some name
        ∧ Name.normalize name ≠ Name.normalize of
        ∧ Relation.TransGen (Refers types (linksOf ds)) (Name.normalize name)
            (Name.normalize of) := by
  have hg := isComplete_ofDeclarations ds
  unfold IsDescendant
  rw [← nodeOf_normalize of]
  constructor
  · rintro ⟨id, hne, hchain, hname⟩
    have hid := source_mem_of_chain hg.toWellFormed hchain
    obtain ⟨a, rfl, hrefers⟩ := chain_iff.mp hchain
    rw [declaredName?_ofDeclarations hid, Except.ok.injEq] at hname
    obtain ⟨d, hd, rfl⟩ := Option.map_eq_some_iff.mp hname
    obtain rfl := normalize_of_first? hd
    exact ⟨hname, fun h => hne (congrArg nodeOf h), hrefers⟩
  · rintro ⟨hname, hne, hrefers⟩
    have hchain := chain_iff.mpr ⟨_, rfl, hrefers⟩
    refine ⟨nodeOf (Name.normalize name), ?_, hchain, ?_⟩
    · rw [Ne, nodeOf_inj]
      exact hne
    · rw [declaredName?_ofDeclarations (source_mem_of_chain hg.toWellFormed hchain), hname]

end Hierarchy
end ClassLineage
