import ClassLineage.Hierarchy.Saved
import ClassLineage.Proofs.Hierarchy.Build
import ClassLineage.Proofs.Json
import ClassLineage.Proofs.Text.Utf8

/-!
# Loading what has been saved

A graph is saved with its nodes in order and its edges by their sources.  Loading adds them one
after the other: each node is new, and each edge joins nodes that are there and that no edge has
joined before.  So what is loaded is the graph with its edges by their sources, which has the same
value, the same text and the same descendants.

## Main definitions

* `Hierarchy.IsSavable` — a graph whose attributes stand apart from what identifies its nodes and
  edges.

## Main results

* `Hierarchy.foldlM_loadNode`, `Hierarchy.foldlM_loadEdge` — **what loading nodes and edges adds.**
* `Hierarchy.IsSavable.load_save` — **a graph is loaded as it was saved.**
* `Hierarchy.load_save_ofDeclarations` — **so is the graph of declarations.**
-/

namespace ClassLineage
namespace Hierarchy

variable {g : Hierarchy}

/-! ### Attributes -/

/-- Attributes that are saved with what identifies their node or edge: each is there once, is no
number, and has none of the keys that are set apart. -/
structure AreSavable (keys : List String) (attributes : Entries Json) : Prop where
  /-- Each attribute is there once. -/
  nodup : attributes.keys.Nodup
  /-- No attribute has a key that is set apart. -/
  apart : ∀ key ∈ keys, key ∉ attributes.keys
  /-- Each attribute is plain. -/
  plain : ∀ e ∈ attributes, e.2.IsPlain

section Attributes

variable {keys : List String} {attributes : Entries Json}

/-- What is set apart is left out again. -/
theorem AreSavable.filter_append (h : AreSavable keys attributes) {more : Entries Json}
    (hmore : ∀ e ∈ more, e.1 ∈ keys) :
    (attributes ++ more).filter (fun e => !keys.contains e.1) = attributes := by
  have hkept : attributes.filter (fun e => !keys.contains e.1) = attributes := by
    rw [List.filter_eq_self]
    intro e he
    have hnot : e.1 ∉ keys := fun hkey => h.apart e.1 hkey (List.mem_map_of_mem he)
    simp [hnot]
  have hgone : more.filter (fun e => !keys.contains e.1) = [] := by
    rw [List.filter_eq_nil_iff]
    intro e he
    simp [hmore e he]
  rw [List.filter_append, hkept, hgone, List.append_nil]

/-- The value of a node lists its attributes, and then what identifies it. -/
theorem AreSavable.nodeJson_eq {id : String} (h : AreSavable ["id"] attributes) :
    nodeJson (id, attributes) = .obj (attributes ++ [("id", .str id)]) := by
  have hnot := h.apart "id" (by simp)
  unfold nodeJson
  rw [Entries.put_of_not_mem hnot]

/-- The value of an edge lists its attributes, and then the nodes that it joins. -/
theorem AreSavable.edgeJson_eq {e : Edge} (h : AreSavable ["source", "target"] e.attributes) :
    edgeJson e = .obj (e.attributes ++ [("source", .str e.source), ("target", .str e.target)]) := by
  have hsource := h.apart "source" (by simp)
  have htarget : "target" ∉ Entries.keys (e.attributes ++ [("source", .str e.source)]) := by
    have hnot := h.apart "target" (by simp)
    unfold Entries.keys at hnot ⊢
    rw [List.map_append, List.mem_append, not_or]
    exact ⟨hnot, by simp⟩
  unfold edgeJson
  rw [Entries.put_of_not_mem hsource, Entries.put_of_not_mem htarget, List.append_assoc]
  rfl

/-- Attributes with what identifies their node or edge make a plain value. -/
theorem AreSavable.isPlain_append (h : AreSavable keys attributes) {more : Entries Json}
    (hnodup : more.keys.Nodup) (hmore : ∀ e ∈ more, e.1 ∈ keys ∧ e.2.IsPlain) :
    (Json.obj (attributes ++ more)).IsPlain := by
  apply Json.IsPlain.obj
  · unfold Entries.keys at hnodup ⊢
    rw [List.map_append, List.nodup_append]
    refine ⟨h.nodup, hnodup, ?_⟩
    rintro a ha b hb rfl
    obtain ⟨e, he, rfl⟩ := List.mem_map.mp hb
    exact h.apart e.1 (hmore e he).1 ha
  · intro e he
    rcases List.mem_append.mp he with he | he
    · exact h.plain e he
    · exact (hmore e he).2

end Attributes

/-! ### Graphs that can be saved -/

/-- The graph is well-formed, and its attributes can be saved. -/
structure IsSavable (g : Hierarchy) : Prop extends g.WellFormed where
  /-- What is said of the graph is plain. -/
  label : g.label.IsPlain
  /-- The attributes of nodes stand apart from their names. -/
  nodes : ∀ n ∈ g.nodes, AreSavable ["id"] n.2
  /-- The attributes of edges stand apart from the nodes that they join. -/
  edges : ∀ e ∈ g.edges, AreSavable ["source", "target"] e.attributes

theorem isPlain_nodeJson {n : String × Entries Json} (h : AreSavable ["id"] n.2) :
    (nodeJson n).IsPlain := by
  have hjson : nodeJson n = .obj (n.2 ++ [("id", .str n.1)]) := h.nodeJson_eq
  rw [hjson]
  apply h.isPlain_append
  · exact List.nodup_singleton "id"
  · intro e he
    obtain rfl := List.mem_singleton.mp he
    exact ⟨List.mem_singleton_self _, .str _⟩

theorem isPlain_edgeJson {e : Edge} (h : AreSavable ["source", "target"] e.attributes) :
    (edgeJson e).IsPlain := by
  rw [h.edgeJson_eq]
  apply h.isPlain_append
  · show ["source", "target"].Nodup
    decide
  · intro entry hentry
    simp only [List.mem_cons, List.not_mem_nil, or_false] at hentry
    rcases hentry with rfl | rfl
    · exact ⟨by simp, .str _⟩
    · exact ⟨by simp, .str _⟩

/-- The value of a graph holds no numbers. -/
theorem IsSavable.isPlain_toJson (h : g.IsSavable) : g.toJson.IsPlain := by
  apply Json.IsPlain.obj
  · show ["directed", "multigraph", "graph", "nodes", "edges"].Nodup
    decide
  · intro e he
    simp only [List.mem_cons, List.not_mem_nil, or_false] at he
    rcases he with rfl | rfl | rfl | rfl | rfl
    · exact .bool true
    · exact .bool false
    · exact h.label
    · apply Json.IsPlain.arr
      intro v hv
      obtain ⟨n, hn, rfl⟩ := List.mem_map.mp hv
      exact isPlain_nodeJson (h.nodes n hn)
    · apply Json.IsPlain.arr
      intro v hv
      obtain ⟨e, he, rfl⟩ := List.mem_map.mp hv
      exact isPlain_edgeJson (h.edges e (h.edgesInOrder_perm.mem_iff.mp he))

/-! ### Loading -/

/-- A new node is added at the end, with its attributes. -/
theorem loadNode_nodeJson {n : String × Entries Json} (h : AreSavable ["id"] n.2)
    (hnew : n.1 ∉ g.nodes.keys) :
    loadNode g (nodeJson n) = .ok { g with nodes := g.nodes ++ [n] } := by
  have hjson : nodeJson n = .obj (n.2 ++ [("id", .str n.1)]) := h.nodeJson_eq
  have hid : textAt "id" (nodeJson n) = .ok n.1 := by
    unfold textAt nodeJson Json.get?
    simp only [Entries.find?_put, if_true]
  have hattributes : attributesOf ["id"] (nodeJson n) = n.2 := by
    rw [hjson]
    exact h.filter_append (by simp)
  have hmissing : g.node? n.1 = none := Entries.find?_eq_none_iff.mpr hnew
  have hset : n.2.putAll [] = n.2 := Entries.putAll_eq_append h.nodup
  unfold loadNode mergeNode
  rw [hid, hattributes]
  show Except.ok
    { g with nodes := Entries.put n.1 (n.2.putAll ((g.node? n.1).getD [])) g.nodes } = _
  rw [hmissing, Option.getD_none, hset, Entries.put_of_not_mem hnew]

/-- **Loading nodes adds them in order.** -/
theorem foldlM_loadNode {nodes : Entries (Entries Json)} (h : ∀ n ∈ nodes, AreSavable ["id"] n.2)
    (hnodup : Entries.keys (g.nodes ++ nodes) |>.Nodup) :
    (nodes.map nodeJson).foldlM loadNode g = .ok { g with nodes := g.nodes ++ nodes } := by
  induction nodes generalizing g with
  | nil =>
    rw [List.append_nil]
    rfl
  | cons n nodes ih =>
    have hnew : n.1 ∉ g.nodes.keys := Entries.not_mem_of_nodup hnodup
    have hstep := loadNode_nodeJson (h n List.mem_cons_self) hnew
    have hrest := ih (g := { g with nodes := g.nodes ++ [n] })
      (fun m hm => h m (List.mem_cons_of_mem _ hm)) (by simpa using hnodup)
    rw [List.map_cons, List.foldlM_cons, hstep]
    show (nodes.map nodeJson).foldlM loadNode { g with nodes := g.nodes ++ [n] } = _
    rw [hrest, List.append_assoc, List.singleton_append]

/-- A new edge between nodes that are there is added at the end, with its attributes. -/
theorem loadEdge_edgeJson {e : Edge} (h : AreSavable ["source", "target"] e.attributes)
    (hsource : e.source ∈ g.nodes.keys) (htarget : e.target ∈ g.nodes.keys)
    (hnew : e.ends ∉ g.edges.map Edge.ends) :
    loadEdge g (edgeJson e) = .ok { g with edges := g.edges ++ [e] } := by
  have hne : ¬ "target" = "source" := by decide
  have hfrom : textAt "source" (edgeJson e) = .ok e.source := by
    unfold textAt edgeJson Json.get?
    simp only [Entries.find?_put, if_true, if_neg hne]
  have hto : textAt "target" (edgeJson e) = .ok e.target := by
    unfold textAt edgeJson Json.get?
    simp only [Entries.find?_put, if_true]
  have hattributes : attributesOf ["source", "target"] (edgeJson e) = e.attributes := by
    rw [h.edgeJson_eq]
    exact h.filter_append (by simp)
  unfold loadEdge
  rw [hfrom, hto, hattributes]
  show Except.ok (g.addEdge e.source e.target e.attributes) = _
  unfold addEdge
  simp only [ensureNode_of_mem hsource, ensureNode_of_mem htarget]
  rw [putEdge_of_not_mem hnew]

/-- **Loading edges adds them in order.** -/
theorem foldlM_loadEdge {edges : List Edge}
    (h : ∀ e ∈ edges, AreSavable ["source", "target"] e.attributes)
    (hsource : ∀ e ∈ edges, e.source ∈ g.nodes.keys)
    (htarget : ∀ e ∈ edges, e.target ∈ g.nodes.keys)
    (hnodup : ((g.edges ++ edges).map Edge.ends).Nodup) :
    (edges.map edgeJson).foldlM loadEdge g = .ok { g with edges := g.edges ++ edges } := by
  induction edges generalizing g with
  | nil =>
    rw [List.append_nil]
    rfl
  | cons e edges ih =>
    have hnew : e.ends ∉ g.edges.map Edge.ends := by
      rw [List.map_append, List.nodup_append] at hnodup
      intro hmem
      exact hnodup.2.2 e.ends hmem e.ends List.mem_cons_self rfl
    have hstep := loadEdge_edgeJson (h e List.mem_cons_self) (hsource e List.mem_cons_self)
      (htarget e List.mem_cons_self) hnew
    have hrest := ih (g := { g with edges := g.edges ++ [e] })
      (fun m hm => h m (List.mem_cons_of_mem _ hm))
      (fun m hm => hsource m (List.mem_cons_of_mem _ hm))
      (fun m hm => htarget m (List.mem_cons_of_mem _ hm)) (by simpa using hnodup)
    rw [List.map_cons, List.foldlM_cons, hstep]
    show (edges.map edgeJson).foldlM loadEdge { g with edges := g.edges ++ [e] } = _
    rw [hrest, List.append_assoc, List.singleton_append]

/-- The graph of a graph's value is the graph with its edges by their sources. -/
theorem IsSavable.ofJson_toJson (h : g.IsSavable) : ofJson g.toJson = .ok g.inOrder := by
  have hnodes := foldlM_loadNode (g := { empty with label := g.label }) h.nodes h.nodup_nodes
  have hordered := h.toWellFormed.inOrder
  have hedges := foldlM_loadEdge (g := ⟨g.label, g.nodes, []⟩)
    (fun e he => h.edges e (h.edgesInOrder_perm.mem_iff.mp he)) hordered.source_mem
    hordered.target_mem hordered.nodup_edges
  unfold ofJson
  show ((g.nodes.map nodeJson).foldlM loadNode { empty with label := g.label } >>= fun loaded =>
    (g.edgesInOrder.map edgeJson).foldlM loadEdge loaded) = _
  rw [hnodes]
  exact hedges

/-- **A graph is loaded as it was saved,** with its edges by their sources. -/
theorem IsSavable.load_save (h : g.IsSavable) : load g.save = .ok g.inOrder := by
  unfold load save
  rw [Json.parse?_render h.isPlain_toJson]
  simp only [h.ofJson_toJson]
  rfl

/-! ### The graph with its edges by their sources -/

theorem leads_inOrder (h : g.WellFormed) (types : List String) (a b : String) :
    g.inOrder.Leads types a b ↔ g.Leads types a b := by
  unfold Leads
  apply exists_congr
  intro e
  apply and_congr_left
  intro _
  exact h.edgesInOrder_perm.mem_iff

theorem IsComplete.inOrder (h : g.IsComplete) : g.inOrder.IsComplete where
  toWellFormed := h.toWellFormed.inOrder
  typed e he := h.typed e (h.edgesInOrder_perm.mem_iff.mp he)
  named := h.named

theorem toJson_inOrder (h : g.WellFormed) : g.inOrder.toJson = g.toJson := by
  unfold toJson
  rw [h.edgesInOrder_inOrder]
  rfl

/-! ### The graph of declarations -/

/-- The keys of the attributes of a node, in order. -/
def nodeKeys : List String := ["type", "name", "qualname", "path", "kind", "external"]

theorem areSavable_of_keys {attributes : Entries Json} (hkeys : attributes.keys = nodeKeys)
    (hplain : ∀ e ∈ attributes, e.2.IsPlain) : AreSavable ["id"] attributes where
  nodup := by
    rw [hkeys]
    decide
  apart := by
    rw [hkeys]
    decide
  plain := hplain

theorem areSavable_declaredAttributes (d : Declaration) :
    AreSavable ["id"] (declaredAttributes d) := by
  apply areSavable_of_keys rfl
  intro e he
  unfold declaredAttributes at he
  simp only [List.mem_cons, List.not_mem_nil, or_false] at he
  rcases he with rfl | rfl | rfl | rfl | rfl | rfl
  · exact .str _
  · exact .str _
  · exact .str _
  · exact .str _
  · exact .str _
  · exact .bool false

theorem areSavable_externalAttributes (name : String) :
    AreSavable ["id"] (externalAttributes name) := by
  apply areSavable_of_keys rfl
  intro e he
  unfold externalAttributes at he
  simp only [List.mem_cons, List.not_mem_nil, or_false] at he
  rcases he with rfl | rfl | rfl | rfl | rfl | rfl
  · exact .str _
  · exact .str _
  · exact .str _
  · exact .null
  · exact .null
  · exact .bool true

theorem areSavable_edge (l : Link) : AreSavable ["source", "target"] l.edge.attributes where
  nodup := List.nodup_singleton _
  apart := by
    show ∀ key ∈ ["source", "target"], key ∉ ["type"]
    decide
  plain := by
    intro e he
    obtain rfl := List.mem_singleton.mp he
    exact .str _

theorem isSavable_ofDeclarations (ds : List Declaration) : (ofDeclarations ds).IsSavable where
  toWellFormed := wellFormed_ofDeclarations ds
  label := by
    rw [ofDeclarations_eq]
    exact .obj List.nodup_nil (by simp)
  nodes := by
    intro n hn
    rw [ofDeclarations_eq] at hn
    rcases Entries.mem_of_mem_putNewAll hn with hn | hn
    · rcases Entries.mem_of_mem_putNewAll hn with hn | hn
      · cases hn
      · obtain ⟨d, -, rfl⟩ := List.mem_map.mp hn
        exact areSavable_declaredAttributes d
    · obtain ⟨d, -, hn⟩ := List.mem_flatMap.mp hn
      obtain ⟨reference, -, rfl⟩ := List.mem_map.mp hn
      exact areSavable_externalAttributes reference.2
  edges := by
    intro e he
    rw [ofDeclarations_eq] at he
    obtain ⟨l, -, rfl⟩ := mem_edgesOf.mp he
    exact areSavable_edge l

/-- **The graph of declarations is loaded from the file that it is saved to:** with the same nodes
and attributes in the same order, the same edges with the same attributes in the order in which they
are listed, the same value, the same text, and the same descendants of every name. -/
theorem load_save_ofDeclarations (ds : List Declaration) :
    ∃ loaded, load (Text.Utf8.decode (Text.Utf8.encode (ofDeclarations ds).save)) = .ok loaded
      ∧ loaded.label = (ofDeclarations ds).label
      ∧ loaded.nodes = (ofDeclarations ds).nodes
      ∧ loaded.edgesInOrder = (ofDeclarations ds).edgesInOrder
      ∧ loaded.edges.Perm (ofDeclarations ds).edges
      ∧ loaded.toJson = (ofDeclarations ds).toJson
      ∧ loaded.save = (ofDeclarations ds).save
      ∧ (∀ c ∈ (ofDeclarations ds).save.toList, Json.IsLaidOut c)
      ∧ ∀ name types,
          loaded.descendants name types = (ofDeclarations ds).descendants name types := by
  have hwell := wellFormed_ofDeclarations ds
  have hcomplete := isComplete_ofDeclarations ds
  have hsavable := isSavable_ofDeclarations ds
  refine ⟨(ofDeclarations ds).inOrder, ?_, rfl, rfl, hwell.edgesInOrder_inOrder,
    hwell.edgesInOrder_perm, toJson_inOrder hwell, ?_, ?_, ?_⟩
  · rw [Text.Utf8.decode_encode]
    exact hsavable.load_save
  · unfold save
    rw [toJson_inOrder hwell]
  · unfold save Json.render
    rw [String.toList_ofList]
    exact hsavable.isPlain_toJson.isLaidOut 0
  · exact hcomplete.descendants_congr hcomplete.inOrder (leads_inOrder hwell) fun _ _ => rfl

end Hierarchy
end ClassLineage
