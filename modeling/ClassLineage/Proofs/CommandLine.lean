import ClassLineage.CommandLine
import ClassLineage.Proofs.Disk.Write
import ClassLineage.Proofs.Filesystem.Local
import ClassLineage.Proofs.Hierarchy.Saved

/-!
# What a call prints and writes

A call whose arguments and environment are accepted searches the disk as its configuration tells.
What the search finds is printed, as a JSON text that decodes to the records or on lines of its own,
and the disk stays as it is; a hierarchy is written to one file, from which it is loaded again.  What
the filesystem says of a search that fails is complained about, before anything is printed or
written.

## Main definitions

* `Hierarchy.IsCopyOf` — two graphs that differ at most by the order of edges from different nodes.
* `Command.root`, `Command.searchOn` — the directory of a command, and the search of its run.
* `Command.Prints` — a text that tells of declarations, in one of two formats.
* `Command.Saves` — two disks that differ by the file that a graph is saved to.

## Main results

* `Command.prints_printFound` — **what is printed tells of exactly the declarations found.**
* `Command.saves_writeFile` — **a graph that is saved is loaded from the disk again.**
* `CommandLine.run_accepted` — **what an accepted call prints and writes, and how it fails.**
-/

namespace ClassLineage

/-! ### Records -/

theorem Declaration.isPlain_toJson (d : Declaration) : d.toJson.IsPlain := by
  have htexts : ∀ l : List String, (Json.texts l).IsPlain := by
    intro l
    apply Json.IsPlain.arr
    intro v hv
    obtain ⟨s, -, rfl⟩ := List.mem_map.mp hv
    exact .str s
  have hparent : (Json.optText d.parent).IsPlain := by
    cases d.parent with
    | none => exact .null
    | some parent => exact .str parent
  apply Json.IsPlain.obj
  · show ["class", "file", "namespace", "short_name", "kind", "extends", "implements",
      "traits"].Nodup
    decide
  · intro e he
    simp only [List.mem_cons, List.not_mem_nil, or_false] at he
    rcases he with rfl | rfl | rfl | rfl | rfl | rfl | rfl | rfl
    · exact .str _
    · exact .str _
    · exact .str _
    · exact .str _
    · exact .str _
    · exact hparent
    · exact htexts _
    · exact htexts _

/-! ### Graphs -/

/-- The graphs have the same label, the same nodes with the same attributes in the same order, and
the same edges with the same attributes, in the same order by their sources. -/
structure Hierarchy.IsCopyOf (g h : Hierarchy) : Prop where
  /-- The same is said of both. -/
  label : g.label = h.label
  /-- They have the same nodes. -/
  nodes : g.nodes = h.nodes
  /-- They have the same edges. -/
  edges : g.edges.Perm h.edges
  /-- The edges are listed in the same order. -/
  edgesInOrder : g.edgesInOrder = h.edgesInOrder

theorem Hierarchy.WellFormed.isCopyOf_inOrder {g : Hierarchy} (h : g.WellFormed) :
    g.inOrder.IsCopyOf g :=
  ⟨rfl, rfl, h.edgesInOrder_perm, h.edgesInOrder_inOrder⟩

namespace Command

variable {tokens : Tokenizer} {config : Config} {disk after : Disk} {command : Command}
  {ds : List Declaration}
  {directory target output : String} {relation : Relation} {asJson : Bool} {p : Path}

/-! ### What is printed -/

/-- The text tells of the declarations, in order: as a JSON text that decodes to their records, or
on a line for each with its name, a tab and its path. -/
def Prints (asJson : Bool) (ds : List Declaration) (text : String) : Prop :=
  if asJson then Json.parse? text = some (.arr (ds.map (·.toJson)))
  else text = String.join (ds.map fun d => d.name ++ "\t" ++ d.path ++ "\n")

/-- **What is printed tells of exactly the declarations found.** -/
theorem prints_printFound (asJson : Bool) (ds : List Declaration) :
    Prints asJson ds (printFound asJson ds) := by
  cases asJson with
  | false => rfl
  | true =>
    have hplain : (Json.arr (ds.map (·.toJson))).IsPlain := by
      apply Json.IsPlain.arr
      intro v hv
      obtain ⟨d, -, rfl⟩ := List.mem_map.mp hv
      exact d.isPlain_toJson
    -- the text is printed as a line, and the end of the line is a blank
    exact Json.parse?_render_append hplain (List.forall_mem_singleton.mpr rfl)

/-! ### What is written -/

/-- The second disk is the first one with a graph saved to a file, from which a copy of it is
loaded. -/
def Saves (g : Hierarchy) (p : Path) (before after : Disk) : Prop :=
  ∃ bytes loaded, Disk.Writes p bytes before after
    ∧ Hierarchy.load (Text.Utf8.decode bytes) = .ok loaded ∧ loaded.IsCopyOf g

/-- **A graph that is saved is loaded from the disk again.** -/
theorem saves_writeFile (hp : p.IsRead)
    (h : disk.writeFile p (Text.Utf8.encode (Hierarchy.ofDeclarations ds).save) = .ok after) :
    Saves (Hierarchy.ofDeclarations ds) p disk after := by
  refine ⟨_, _, Disk.writes_writeFile hp h, ?_,
    (Hierarchy.wellFormed_ofDeclarations ds).isCopyOf_inOrder⟩
  rw [Text.Utf8.decode_encode]
  exact (Hierarchy.isSavable_ofDeclarations ds).load_save

/-! ### What a command does -/

/-- The directory that a command works on. -/
def root : Command → String
  | .find root .. => root
  | .graph root _ => root

/-- The search of a run: below the place that relative paths start from, as a configuration
tells. -/
def searchOn (config : Config) (disk : Disk) (tokens : Tokenizer := Php.tokens) : Search tokens :=
  ⟨(LocalFiles.mk disk none).filesystem, config⟩

/-- What the filesystem says of a search that fails is all that becomes of a run. -/
theorem run_of_scanDirectory {e : AccessError}
    (h : (searchOn config disk tokens).scanDirectory (Path.ofText command.root) = .error e) :
    command.run config disk tokens = failed disk e := by
  have hperform : command.perform (searchOn config disk tokens) = .error e := by
    cases command with
    | find directory target relation asJson =>
      rw [Command.root] at h
      rw [perform, Search.find, h]
      rfl
    | graph directory output =>
      rw [Command.root] at h
      rw [perform, h]
      rfl
  unfold searchOn at hperform
  rw [run, hperform]

theorem run_find
    (h : (searchOn config disk tokens).find (Path.ofText directory) target relation = .ok ds) :
    (Command.find directory target relation asJson).run config disk tokens
      = .ok (success disk (printFound asJson ds)) := by
  have hperform : (Command.find directory target relation asJson).perform
        (searchOn config disk tokens)
      = .ok ⟨printFound asJson ds, none⟩ := by
    rw [perform, h]
    rfl
  unfold searchOn at hperform
  rw [run, hperform]
  rfl

/-- After a search that goes well, what the system says of the file is what becomes of a run. -/
theorem run_graph (h : (searchOn config disk tokens).scanDirectory (Path.ofText directory) = .ok ds)
    (houtput : output ≠ "") :
    (Command.graph directory output).run config disk tokens
      = match disk.writeFile (Path.ofText output)
          (Text.Utf8.encode (Hierarchy.ofDeclarations ds).save) with
        | .ok after => .ok (success after (printCounts (Hierarchy.ofDeclarations ds)))
        | .error e => .error (.system e) := by
  have hperform : (Command.graph directory output).perform (searchOn config disk tokens)
      = .ok ⟨printCounts (Hierarchy.ofDeclarations ds),
          some (output, (Hierarchy.ofDeclarations ds).save)⟩ := by
    rw [perform, h]
    show Except.ok (Effect.mk _ (if output = "" then _ else _)) = _
    rw [if_neg houtput]
  unfold searchOn at hperform
  rw [run, hperform]
  rfl

end Command

namespace CommandLine

open Command

variable {tokens : Tokenizer} {env : Environment} {args : List String} {command : Command}
  {config : Config}

theorem run_of_parse (disk : Disk) (hargs : Command.parse args = .ok command)
    (henv : Config.ofEnvironment env = .ok config) :
    run env disk args tokens = command.run config disk tokens := by
  rw [run, hargs]
  dsimp only
  rw [henv]

/-- **What an accepted call prints and writes, and how it fails.**  Where the search of its
directory fails, what the filesystem says is complained about with the code 1; nothing is printed,
and the disk stays as it is.  Else declarations that are found are printed, and nothing is written.
A graph that is to be saved to a file is written there and nowhere else, and its nodes and edges are
counted, unless the search or the system fails. -/
theorem run_accepted (tokens : Tokenizer) (disk : Disk) (hargs : Command.parse args = .ok command)
    (henv : Config.ofEnvironment env = .ok config) :
    (∀ e, (searchOn config disk tokens).scanDirectory (Path.ofText command.root)
        = .error (.file e) →
      run env disk args tokens = .ok ⟨1, "", some e.message, disk⟩)
    ∧ (∀ e, (searchOn config disk tokens).scanDirectory (Path.ofText command.root)
        = .error (.system e) →
      run env disk args tokens = .error (.system e))
    ∧ (∀ root target relation asJson, command = .find root target relation asJson →
      ∀ ds, (searchOn config disk tokens).find (Path.ofText root) target relation = .ok ds →
        ∃ printed, run env disk args tokens = .ok ⟨0, printed, none, disk⟩
          ∧ Prints asJson ds printed)
    ∧ (∀ root output, command = .graph root output → output ≠ "" →
      ∀ ds, (searchOn config disk tokens).scanDirectory (Path.ofText root) = .ok ds →
        (∃ after, Saves (Hierarchy.ofDeclarations ds) (Path.ofText output) disk after
          ∧ run env disk args tokens
            = .ok ⟨0, toString (Hierarchy.ofDeclarations ds).nodes.length ++ " "
              ++ toString (Hierarchy.ofDeclarations ds).edges.length ++ "\n", none, after⟩)
        ∨ ∃ e, run env disk args tokens = .error (.system e)
          ∧ ∀ bytes, disk.writeFile (Path.ofText output) bytes = .error e) := by
  rw [run_of_parse disk hargs henv]
  refine ⟨fun e he => run_of_scanDirectory he, fun e he => run_of_scanDirectory he, ?_, ?_⟩
  · rintro root target relation asJson rfl ds hds
    exact ⟨_, run_find hds, prints_printFound asJson ds⟩
  · rintro root output rfl houtput ds hds
    rw [run_graph hds houtput]
    cases hwrite : disk.writeFile (Path.ofText output)
        (Text.Utf8.encode (Hierarchy.ofDeclarations ds).save) with
    | ok after => exact Or.inl ⟨after, saves_writeFile (Path.isRead_ofText output) hwrite, rfl⟩
    | error e => exact Or.inr ⟨e, rfl, Disk.writeFile_eq_error hwrite⟩

/-! ### A shop -/

/-- A source that declares a class and what it extends. -/
def cartSource : String := "<?php class Cart extends Base \x7b\x7d"

/-- A disk that holds it. -/
def shopDisk : Disk where
  root := .directory [("work", .directory [("shop", .directory
    [("Cart.php", .file (Text.Utf8.encode cartSource))])])]
  here := ["work"]

/-- The class of the source. -/
def cart : Declaration :=
  ⟨"Cart", "shop/Cart.php", "", "Cart", "class", some "Base", [], []⟩

/-- A search of the shop finds the class. -/
theorem scanDirectory_shop :
    (searchOn .standard shopDisk).scanDirectory (Path.ofText "shop") = .ok [cart] := by
  have hdir : shopDisk.find ⟨.relative, ["shop"]⟩
      = .ok (.directory [("Cart.php", .file (Text.Utf8.encode cartSource))]) :=
    Disk.find_of_at? (by decide) rfl (by simp) (by decide) (by decide)
  have hfile : shopDisk.find ⟨.relative, ["shop", "Cart.php"]⟩
      = .ok (.file (Text.Utf8.encode cartSource)) :=
    Disk.find_of_at? (by decide) rfl (by simp) (by decide) (by decide)
  have hlist : (LocalFiles.mk shopDisk none).listFiles true ⟨.relative, ["shop"]⟩
      = .ok ["shop/Cart.php"] :=
    @LocalFiles.listFiles_singleton (LocalFiles.mk shopDisk none) true ⟨.relative, ["shop"]⟩
      "Cart.php" (Text.Utf8.encode cartSource) hdir hfile
  have hread : (LocalFiles.mk shopDisk none).readText ⟨.relative, ["shop", "Cart.php"]⟩
      = .ok cartSource :=
    LocalFiles.readText_eq_ok_iff.mpr ⟨_, Disk.readBytes_of_find hfile, Text.Utf8.decode_encode _⟩
  have hscan := @Search.scanDirectory_of_scanFile Php.tokens (searchOn .standard shopDisk)
    ⟨.relative, ["shop"]⟩ ["shop/Cart.php"] hlist (Search.scanSource Php.tokens cartSource)
    fun path hpath _ => by
      rw [List.mem_singleton.mp hpath]
      exact Search.scanFile_of_readText hread
  have hfound : (["shop/Cart.php"].filter (Search.keeps ⟨.relative, ["shop"]⟩
      Config.standard.excludes Config.standard.extensions)).flatMap
      (Search.scanSource Php.tokens cartSource) = [cart] := by
    decide +kernel
  exact hscan.trans (congrArg Except.ok hfound)

/-- Next to the shop, a file can be written. -/
theorem exists_writeFile_shop :
    ∃ after, shopDisk.writeFile (Path.ofText "shop.json") [] = .ok after := by
  have hfree := @Disk.followText_free shopDisk "shop.json" _ (by decide) (by decide) (by decide)
    rfl rfl
  have hpath : Path.ofText "shop.json" = ⟨.relative, ["shop.json"]⟩ := by decide
  rw [hpath, Disk.writeFile, hfree]
  exact ⟨_, rfl⟩

/-- No directory has the name of the store. -/
theorem scanDirectory_store :
    (searchOn .standard shopDisk).scanDirectory (Path.ofText "store")
      = .error (.file (.directoryNotFound "store")) := by
  have hfree := @Disk.followText_free shopDisk "store" _ (by decide) (by decide) (by decide)
    rfl rfl
  have hdir : shopDisk.isDirectory ⟨.relative, ["store"]⟩ = .ok false := by
    rw [Disk.isDirectory, Disk.test, Disk.find, Disk.findText, hfree]
    rfl
  apply Search.scanDirectory_of_listFiles_error
  show (LocalFiles.mk shopDisk none).listFiles true ⟨.relative, ["store"]⟩ = _
  unfold LocalFiles.listFiles LocalFiles.path
  dsimp only
  rw [hdir]
  rfl

/-- In the shop, a class is found and printed, the graph is saved and counted, and a directory that
is not there is complained about. -/
theorem run_accepted_shop :
    Command.parse ["find", "--root", "shop", "--target", "Base", "--json"]
        = .ok (.find "shop" "Base" .extending true)
    ∧ Command.parse ["graph", "--root", "shop", "--output", "shop.json"]
        = .ok (.graph "shop" "shop.json")
    ∧ Config.ofEnvironment [] = .ok .standard
    ∧ (∃ printed, run [] shopDisk ["find", "--root", "shop", "--target", "Base", "--json"]
          = .ok ⟨0, printed, none, shopDisk⟩ ∧ Prints true [cart] printed)
    ∧ (∃ after, Saves (Hierarchy.ofDeclarations [cart]) (Path.ofText "shop.json") shopDisk after
        ∧ run [] shopDisk ["graph", "--root", "shop", "--output", "shop.json"]
          = .ok ⟨0, "2 1\n", none, after⟩)
    ∧ run [] shopDisk ["graph", "--root", "store"]
        = .ok ⟨1, "", some "Directory not found: store", shopDisk⟩ := by
  have hfindArgs : Command.parse ["find", "--root", "shop", "--target", "Base", "--json"]
      = .ok (.find "shop" "Base" .extending true) := by decide +kernel
  have hgraphArgs : Command.parse ["graph", "--root", "shop", "--output", "shop.json"]
      = .ok (.graph "shop" "shop.json") := by decide +kernel
  have hstoreArgs : Command.parse ["graph", "--root", "store"]
      = .ok (.graph "store" "class_graph.json") := by decide +kernel
  have henv : Config.ofEnvironment [] = .ok .standard := by decide +kernel
  have hfound : (searchOn .standard shopDisk).find (Path.ofText "shop") "Base" .extending
      = .ok [cart] := by
    have hkept : [cart].filter (Search.refersTo "Base" .extending) = [cart] := by decide +kernel
    rw [Search.find, scanDirectory_shop]
    exact congrArg Except.ok hkept
  obtain ⟨-, -, hfind, -⟩ := run_accepted Php.tokens shopDisk hfindArgs henv
  obtain ⟨-, -, -, hgraph⟩ := run_accepted Php.tokens shopDisk hgraphArgs henv
  obtain ⟨hfails, -, -, -⟩ := run_accepted Php.tokens shopDisk hstoreArgs henv
  refine ⟨hfindArgs, hgraphArgs, henv, hfind _ _ _ _ rfl _ hfound, ?_,
    hfails _ scanDirectory_store⟩
  rcases hgraph _ _ rfl (by decide) _ scanDirectory_shop with
    ⟨after, hsaves, hrun⟩ | ⟨e, -, herror⟩
  · have hcounts : toString (Hierarchy.ofDeclarations [cart]).nodes.length ++ " "
        ++ toString (Hierarchy.ofDeclarations [cart]).edges.length ++ "\n" = "2 1\n" := by
      decide +kernel
    exact ⟨after, hsaves, hcounts ▸ hrun⟩
  · obtain ⟨after, hafter⟩ := exists_writeFile_shop
    rw [herror] at hafter
    cases hafter

end CommandLine
end ClassLineage
