import ClassLineage.Proofs.Disk.Edit

/-!
# Trees of directories and files

A tree is known by what stands at each of its places: a file with its bytes, or a directory.
Where no directory has two entries of one name, the places of a tree are listed once each.

## Main definitions

* `NodeKind`, `DiskNode.kindAt?` — what stands at a place, whatever is below it.
* `DiskNode.IsTidy` — a tree of directories and files, in which names are not used twice.

## Main results

* `DiskNode.kindAt?_set` — **a node that is set changes what stands at its place, and only there.**
* `DiskNode.IsTidy.mem_places_iff`, `DiskNode.IsTidy.nodup_places` — the places that are listed.
* `DiskNode.IsTidy.set` — a tree stays tidy.
-/

namespace ClassLineage

/-- What a node is, whatever is below it. -/
inductive NodeKind
  /-- A file with its bytes. -/
  | file (bytes : List UInt8)
  /-- A link to another path. -/
  | link (target : String)
  /-- A directory. -/
  | directory
deriving Repr, DecidableEq

namespace Entries

variable {α : Type} {key : String} {value : α} {entries : Entries α}

/-- Where each key is there once, every entry is found. -/
theorem find?_eq_some_iff (h : (keys entries).Nodup) :
    find? key entries = some value ↔ (key, value) ∈ entries := by
  constructor
  · exact mem_of_find?
  · intro hmem
    obtain ⟨before, after, rfl⟩ := List.append_of_mem hmem
    rw [find?_append, find?_eq_none_iff.mpr (not_mem_of_nodup h), find?_cons, if_pos rfl,
      Option.none_or]

end Entries

namespace DiskNode

variable {node new inner : DiskNode} {place other more : Place} {name : String}
  {entries : List (String × DiskNode)} {bytes : List UInt8}

/-- What a node is. -/
def kind : DiskNode → NodeKind
  | file bytes => .file bytes
  | link target => .link target
  | directory _ => .directory

/-- What stands at a place below a node. -/
def kindAt? (place : Place) (node : DiskNode) : Option NodeKind := (node.at? place).map kind

@[simp] theorem kindAt?_nil : node.kindAt? [] = some node.kind := rfl

@[simp] theorem kind_directory : (directory entries).kind = .directory := rfl

@[simp] theorem kind_file : (file bytes).kind = .file bytes := rfl

theorem kindAt?_directory_cons :
    (directory entries).kindAt? (name :: place)
      = (Entries.find? name entries).bind (kindAt? place) := by
  rw [kindAt?, at?, Option.map_bind]
  rfl

@[simp] theorem kindAt?_file_cons : (file bytes).kindAt? (name :: place) = none := rfl

theorem kindAt?_cons_of_ne (h : node.kind ≠ .directory) : node.kindAt? (name :: place) = none := by
  cases node with
  | file bytes => rfl
  | link target => rfl
  | directory entries => exact absurd rfl h

theorem kind_eq_directory : node.kind = .directory ↔ ∃ entries, node = directory entries := by
  cases node <;> simp [kind]

theorem kindAt?_eq_directory :
    node.kindAt? place = some .directory ↔ ∃ entries, node.at? place = some (directory entries) := by
  simp only [kindAt?, Option.map_eq_some_iff, kind_eq_directory]
  constructor
  · rintro ⟨_, hat, entries, rfl⟩
    exact ⟨entries, hat⟩
  · rintro ⟨entries, hat⟩
    exact ⟨_, hat, entries, rfl⟩

theorem kindAt?_eq_file :
    node.kindAt? place = some (.file bytes) ↔ node.at? place = some (file bytes) := by
  rw [kindAt?, Option.map_eq_some_iff]
  constructor
  · rintro ⟨found, hat, hkind⟩
    cases found with
    | file own => rw [hat, NodeKind.file.inj hkind]
    | link target => cases hkind
    | directory entries => cases hkind
  · intro hat
    exact ⟨_, hat, rfl⟩

theorem kindAt?_append (hat : node.at? place = some inner) (more : Place) :
    node.kindAt? (place ++ more) = inner.kindAt? more := by
  rw [kindAt?, at?_append, hat]
  rfl

/-- Nothing stands below what is no directory. -/
theorem kindAt?_append_of_ne (h : node.kindAt? place ≠ some .directory) (hne : more ≠ []) :
    node.kindAt? (place ++ more) = none := by
  obtain ⟨name, rest, rfl⟩ := List.exists_cons_of_ne_nil hne
  cases hat : node.at? place with
  | none => rw [kindAt?, at?_append, hat]; rfl
  | some inner =>
    rw [kindAt?_append hat]
    apply kindAt?_cons_of_ne
    intro hkind
    exact h (by rw [kindAt?, hat, Option.map_some, hkind])

/-- What leads to something is a directory. -/
theorem kindAt?_of_isSome (h : (node.kindAt? (place ++ more)).isSome) (hne : more ≠ []) :
    node.kindAt? place = some .directory := by
  by_contra hkind
  rw [kindAt?_append_of_ne hkind hne] at h
  exact absurd h (by simp)

/-- What leads to a directory is one. -/
theorem kindAt?_of_prefix (h : node.kindAt? place = some .directory) (hother : other <+: place) :
    node.kindAt? other = some .directory := by
  obtain ⟨rest, rfl⟩ := hother
  by_cases hne : rest = []
  · rwa [hne, List.append_nil] at h
  · exact kindAt?_of_isSome (h ▸ rfl) hne

/-! ### Setting a node -/

/-- A node that nothing is below. -/
theorem kindAt?_of_places_eq_nil (h : new.places = []) (place : Place) :
    new.kindAt? place = if place = [] then some new.kind else none := by
  cases place with
  | nil => rfl
  | cons name place =>
    rw [if_neg (List.cons_ne_nil _ _)]
    cases new with
    | file bytes => rfl
    | link target => rfl
    | directory entries =>
      cases entries with
      | nil => rfl
      | cons e rest =>
        obtain ⟨key, child⟩ := e
        exact absurd h (by simp [places, placesOf])

theorem kindAt?_put :
    (directory (Entries.put name new entries)).kindAt? place
      = match place with
        | [] => some .directory
        | key :: rest =>
          if name = key then new.kindAt? rest else (directory entries).kindAt? (key :: rest) := by
  cases place with
  | nil => rfl
  | cons key rest =>
    rw [kindAt?_directory_cons, Entries.find?_put]
    dsimp only
    split
    · rfl
    · rw [kindAt?_directory_cons]

/-- **A node that is set changes what stands at its place, and only there,** if the place is one in
a directory and no directory stands there. -/
theorem kindAt?_set (hne : place ≠ []) (hparent : node.kindAt? place.dropLast = some .directory)
    (hplace : node.kindAt? place ≠ some .directory) (hnew : new.places = []) :
    (node.set (some new) place).kindAt? other
      = if other = place then some new.kind else node.kindAt? other := by
  induction place generalizing node other with
  | nil => exact absurd rfl hne
  | cons name place ih =>
    obtain ⟨entries, rfl⟩ : ∃ entries, node = directory entries := by
      rw [← kind_eq_directory, ← Option.some_inj, ← kindAt?_nil]
      cases place with
      | nil => exact hparent
      | cons _ _ => exact @kindAt?_of_isSome node [] _ (Option.isSome_of_mem hparent) (by simp)
    cases place with
    | nil =>
      rw [set, kindAt?_put]
      cases other with
      | nil => rfl
      | cons key rest =>
        dsimp only
        by_cases hkey : name = key
        · subst hkey
          -- below the place there was nothing, and there is nothing below the node that is set
          rw [if_pos rfl, kindAt?_of_places_eq_nil hnew]
          cases rest with
          | nil => rw [if_pos rfl, if_pos rfl]
          | cons next rest =>
            rw [if_neg (by simp), if_neg (by simp)]
            have hbelow := kindAt?_append_of_ne hplace (List.cons_ne_nil next rest)
            exact hbelow.symm
        · rw [if_neg hkey, if_neg (by simp [Ne.symm hkey])]
    | cons second place =>
      rw [List.dropLast_cons_of_ne_nil (List.cons_ne_nil _ _), kindAt?_directory_cons] at hparent
      obtain ⟨child, hchild, hparent⟩ := Option.bind_eq_some_iff.mp hparent
      rw [kindAt?_directory_cons, hchild, Option.bind_some] at hplace
      rw [set, hchild]
      · dsimp only
        rw [kindAt?_put]
        cases other with
        | nil => rfl
        | cons key rest =>
          dsimp only
          by_cases hkey : name = key
          · subst hkey
            rw [if_pos rfl, ih (List.cons_ne_nil _ _) hparent hplace, kindAt?_directory_cons, hchild,
              Option.bind_some]
            simp
          · rw [if_neg hkey, if_neg (by simp [Ne.symm hkey])]
      · simp

/-! ### Tidy trees -/

/-- A tree of directories and files, in which no directory has two entries of one name. -/
inductive IsTidy : DiskNode → Prop
  /-- A file is one. -/
  | file (bytes : List UInt8) : IsTidy (.file bytes)
  /-- A directory of such trees is one, if its names differ. -/
  | directory {entries : List (String × DiskNode)} (nodup : (Entries.keys entries).Nodup)
      (inside : ∀ e ∈ entries, IsTidy e.2) : IsTidy (.directory entries)

theorem isTidy_empty : (DiskNode.directory []).IsTidy := by
  apply IsTidy.directory
  · exact List.nodup_nil
  · exact fun e he => absurd he List.not_mem_nil

theorem IsTidy.find? (h : (DiskNode.directory entries).IsTidy)
    (hchild : Entries.find? name entries = some inner) : inner.IsTidy := by
  cases h with
  | directory nodup inside => exact inside _ (Entries.mem_of_find? hchild)

/-- What is below a node of a tidy tree is tidy. -/
theorem IsTidy.at? (h : node.IsTidy) (hat : node.at? place = some inner) : inner.IsTidy := by
  induction place generalizing node with
  | nil =>
    obtain rfl := Option.some.inj hat
    exact h
  | cons name place ih =>
    cases h with
    | file bytes => cases hat
    | directory nodup inside =>
      obtain ⟨child, hchild, hat⟩ := Option.bind_eq_some_iff.mp hat
      exact ih (inside _ (Entries.mem_of_find? hchild)) hat

/-- No link stands in a tidy tree. -/
theorem IsTidy.ne_link (h : node.IsTidy) (target : String) : node ≠ .link target := by
  rintro rfl
  cases h

theorem IsTidy.kindAt?_ne_link (h : node.IsTidy) (place : Place) (target : String) :
    node.kindAt? place ≠ some (.link target) := by
  rw [kindAt?, Ne, Option.map_eq_some_iff]
  rintro ⟨found, hat, hkind⟩
  cases h.at? hat with
  | file bytes => cases hkind
  | directory nodup inside => cases hkind

/-- The places of a tidy tree are those where something stands. -/
theorem IsTidy.mem_places_iff (h : node.IsTidy) :
    place ∈ node.places ↔ place ≠ [] ∧ (node.at? place).isSome := by
  induction place generalizing node with
  | nil =>
    cases h with
    | file bytes => simp [places]
    | directory nodup inside => simp [places, mem_placesOf]
  | cons name place ih =>
    cases h with
    | file bytes => simp [places, DiskNode.at?]
    | @directory entries nodup inside =>
      rw [places, mem_placesOf, DiskNode.at?, Option.isSome_bind]
      constructor
      · rintro ⟨⟨key, child⟩, he, hplace⟩
        obtain ⟨rfl, hrest⟩ : name = key ∧ (place = [] ∨ place ∈ child.places) := by
          rcases hplace with hplace | ⟨q, hq, hplace⟩
          · obtain ⟨rfl, rfl⟩ := List.cons.inj hplace
            exact ⟨rfl, Or.inl rfl⟩
          · obtain ⟨rfl, rfl⟩ := List.cons.inj hplace
            exact ⟨rfl, Or.inr hq⟩
        refine ⟨List.cons_ne_nil _ _, ?_⟩
        rw [(Entries.find?_eq_some_iff nodup).mpr he]
        rcases hrest with rfl | hmem
        · rfl
        · exact ((ih (inside _ he)).mp hmem).2
      · rintro ⟨-, hsome⟩
        cases hchild : Entries.find? name entries with
        | none => rw [hchild] at hsome; cases hsome
        | some child =>
          rw [hchild] at hsome
          have hmem := Entries.mem_of_find? hchild
          refine ⟨_, hmem, ?_⟩
          by_cases hnil : place = []
          · exact Or.inl (by rw [hnil])
          · exact Or.inr ⟨place, (ih (inside _ hmem)).mpr ⟨hnil, hsome⟩, rfl⟩

theorem placesOf_eq (entries : List (String × DiskNode)) :
    placesOf entries = entries.flatMap fun e => ([] :: e.2.places).map (e.1 :: ·) := by
  induction entries with
  | nil => rfl
  | cons e rest ih =>
    obtain ⟨key, child⟩ := e
    rw [placesOf, ih, List.flatMap_cons, List.map_cons]

theorem nil_not_mem_places : [] ∉ node.places := by
  cases node with
  | file bytes => exact List.not_mem_nil
  | link target => exact List.not_mem_nil
  | directory entries => simp [places, mem_placesOf]

/-- Each of them is listed once. -/
theorem IsTidy.nodup_places (h : node.IsTidy) : node.places.Nodup := by
  induction h with
  | file bytes => exact List.nodup_nil
  | @directory entries nodup inside ih =>
    rw [places, placesOf_eq, List.nodup_flatMap]
    constructor
    · intro e he
      exact (List.nodup_cons.mpr ⟨nil_not_mem_places, ih e he⟩).map fun _ _ h => (List.cons.inj h).2
    · -- the places of two entries start with different names
      apply (List.pairwise_map.mp nodup).imp
      intro e other hne q hq hq'
      obtain ⟨_, -, rfl⟩ := List.mem_map.mp hq
      obtain ⟨_, -, heq⟩ := List.mem_map.mp hq'
      exact hne (List.cons.inj heq).1.symm

theorem IsTidy.put (h : (DiskNode.directory entries).IsTidy) (hnew : new.IsTidy) :
    (DiskNode.directory (Entries.put name new entries)).IsTidy := by
  cases h with
  | directory nodup inside =>
    refine .directory (Entries.nodup_keys_put nodup) fun e he => ?_
    rcases Entries.mem_of_mem_put he with rfl | he
    · exact hnew
    · exact inside e he

/-- A tree stays tidy when a tidy one is set in it, or something is taken from it. -/
theorem IsTidy.set (h : node.IsTidy) {new : Option DiskNode}
    (hnew : ∀ added, new = some added → added.IsTidy) : (node.set new place).IsTidy := by
  fun_induction DiskNode.set new place node with
  | case1 node =>
    cases new with
    | none => exact h
    | some added => exact hnew added rfl
  | case2 name entries added hadded => exact h.put (hnew added hadded)
  | case3 name entries =>
    cases h with
    | directory nodup inside =>
      exact .directory (nodup.sublist (List.filter_sublist.map _)) fun e he =>
        inside e (List.mem_filter.mp he).1
  | case4 name place entries hplace child hchild ih => exact h.put (ih (h.find? hchild))
  | case5 => exact h
  | case6 => exact h

end DiskNode
end ClassLineage
