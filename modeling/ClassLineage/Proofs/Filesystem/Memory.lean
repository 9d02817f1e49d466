import ClassLineage.Filesystem.Memory
import ClassLineage.Proofs.Disk.Sound
import ClassLineage.Proofs.Filesystem
import ClassLineage.Proofs.Filesystem.Local
import Mathlib.Data.List.Nodup

/-!
# A directory and the files in memory

The files below a directory of a disk can be held in memory, by their paths relative to the
directory.  A search of the directory gives what a search of these files gives, at the paths below
the directory: it reads the same files in the same order, and leaves out the same directories.

## Main definitions

* `Path.listed` — the text of a path below a directory.
* `MemoryFiles.Mirrors` — files in memory that are those below a directory.

## Main results

* `Search.keeps_listed` — a file counts whatever directory it is below.
* `MemoryFiles.exists_mirrors` — the files below a directory can be held in memory.
* `MemoryFiles.Mirrors.scanDirectory` — **a search of the directory gives what a search of the files
  in memory gives.**
-/

namespace ClassLineage

open Disk (Takes CanName pathOf)

/-! ### Paths below a directory -/

namespace Path

/-- The text of a path below a directory, whose text is given. -/
def listed (top : Path) (text : String) : String := top.toText ++ "/" ++ text

theorem toText_below {top : Path} {q : List String} (htop : top.parts ≠ []) (hq : q ≠ []) :
    (top.below q).toText = top.listed (Path.mk .relative q).toText := by
  have hbelow : top.parts ++ q ≠ [] := List.append_ne_nil_of_left_ne_nil htop _
  rw [listed, toText, toText, toText, if_neg fun h => hbelow h.2, if_neg fun h => htop h.2,
    if_neg fun h => hq h.2]
  have hrelative : PathLead.relative.text = "" := rfl
  rw [below, String.intercalate_append_of_ne_nil htop hq, hrelative, String.empty_append]
  simp only [String.append_assoc]

theorem listed_le_listed_iff (top : Path) (a b : String) : top.listed a ≤ top.listed b ↔ a ≤ b :=
  append_le_append_iff _ a b

theorem listed_inj {top : Path} {a b : String} : top.listed a = top.listed b ↔ a = b := by
  rw [listed, listed, String.append_right_inj]

end Path

/-- The declaration with another path, which is told by its own. -/
def Declaration.mapPath (f : String → String) (d : Declaration) : Declaration :=
  { d with path := f d.path }

/-! ### Files that count -/

namespace Search

theorem directoriesOf_below (top : Path) (q : List String) :
    directoriesOf top (top.below q) = q.dropLast := by
  have hrelative : (top.below q).relativeTo? top = some q := by
    simp [Path.relativeTo?, Path.below]
  rw [directoriesOf, hrelative, Option.getD_some]

/-- **A file counts whatever directory it is below:** only the directories below that one, and the
name of the file, tell whether it does. -/
theorem keeps_listed {top : Path} {q : List String} (htop : top.parts ≠ []) (hq : q ≠ [])
    (hnames : ∀ name ∈ q, Path.IsName name) (hread : top.IsRead) (excludes extensions : List String) :
    keeps top excludes extensions (top.listed (Path.mk .relative q).toText)
      = keeps ⟨.relative, []⟩ excludes extensions (Path.mk .relative q).toText := by
  have hplain : ∀ name ∈ q, Path.IsPlain name := fun name hname => (hnames name hname).1
  have hlisted : Path.ofText (top.listed (Path.mk .relative q).toText) = top.below q := by
    rw [← Path.toText_below htop hq]
    exact Path.ofText_toText (hread.below hplain)
  have hrelative : Path.ofText (Path.mk .relative q).toText = (Path.mk .relative []).below q :=
    Path.ofText_toText (p := ⟨.relative, q⟩) hplain
  have hsuffix : (top.below q).suffix = ((Path.mk .relative []).below q).suffix := by
    obtain ⟨init, name, rfl⟩ := (List.eq_nil_or_concat q).resolve_left hq
    simp [Path.suffix, Path.name, Path.below, List.getLast?_append]
  rw [keeps, keeps, hlisted, hrelative, hsuffix, directoriesOf_below, directoriesOf_below]

theorem path_of_mem_scanSource {tokens : Tokenizer} {source path : String} {d : Declaration}
    (h : d ∈ scanSource tokens source path) : d.path = path := by
  obtain ⟨o, -, rfl⟩ := List.mem_map.mp h
  rfl

/-- Declarations tell the path of their file, and nothing else depends on it. -/
theorem scanSource_mapPath (tokens : Tokenizer) (source path : String) (f : String → String) :
    scanSource tokens source (f path) = (scanSource tokens source path).map (·.mapPath f) := by
  rw [scanSource, scanSource, Declaration.scan, Declaration.scan, Declaration.scanWith,
    Declaration.scanWith, List.map_map]
  rfl

/-- What a declaration refers to does not depend on where its file is. -/
theorem filter_refersTo_mapPath (target : String) (relation : Relation) (f : String → String)
    (ds : List Declaration) :
    (ds.map (·.mapPath f)).filter (refersTo target relation)
      = (ds.filter (refersTo target relation)).map (·.mapPath f) := by
  have hrefers : refersTo target relation ∘ (·.mapPath f) = refersTo target relation := by
    funext d
    cases relation <;> rfl
  rw [List.filter_map, hrefers]

end Search

/-! ### Files in memory -/

namespace MemoryFiles

variable {files : MemoryFiles} {d : Disk} {top : Place}

/-- The files in memory are those below a directory of a disk, by their paths relative to it. -/
structure Mirrors (files : MemoryFiles) (d : Disk) (top : Place) : Prop where
  /-- No path is there twice. -/
  nodup : files.keys.Nodup
  /-- The text of each file is there, and nothing else. -/
  find?_eq_some_iff : ∀ path content, files.find? path = some content ↔
    ∃ q bytes, path = (Path.mk .relative q).toText
      ∧ d.root.kindAt? (top ++ q) = some (.file bytes) ∧ content = .ok (Text.Utf8.decode bytes)

/-- All files in memory are listed below the place where one is. -/
theorem listFiles_here (files : MemoryFiles) :
    files.listFiles ⟨.relative, []⟩ = .ok (sortPaths files.keys) := by
  have hall : files.keys.filter (isBelow ⟨.relative, []⟩) = files.keys :=
    List.filter_eq_self.mpr fun _ _ => rfl
  rw [listFiles, hall]
  exact if_neg fun hnot => hnot.2 rfl

theorem Mirrors.mem_keys_iff (h : files.Mirrors d top) {path : String} :
    path ∈ files.keys ↔ ∃ q bytes, path = (Path.mk .relative q).toText
      ∧ d.root.kindAt? (top ++ q) = some (.file bytes) := by
  rw [← Entries.isSome_find?_iff, Option.isSome_iff_exists]
  simp only [h.find?_eq_some_iff]
  constructor
  · rintro ⟨_, q, bytes, hpath, hfile, -⟩
    exact ⟨q, bytes, hpath, hfile⟩
  · rintro ⟨q, bytes, hpath, hfile⟩
    exact ⟨_, q, bytes, hpath, hfile, rfl⟩

theorem Mirrors.readText (h : files.Mirrors d top) {q : Place} {bytes : List UInt8}
    (hfile : d.root.kindAt? (top ++ q) = some (.file bytes)) :
    files.readText (Path.mk .relative q).toText = .ok (Text.Utf8.decode bytes) := by
  rw [MemoryFiles.readText, (h.find?_eq_some_iff _ _).mpr ⟨q, bytes, rfl, hfile, rfl⟩]
  rfl

end MemoryFiles

/-! ### Files below a directory -/

/-- The places of the files below a node. -/
def DiskNode.filePlaces (node : DiskNode) : List Place :=
  node.places.filter fun q => (node.at? q).any (·.bytes?.isSome)

theorem DiskNode.IsTidy.mem_filePlaces_iff {node : DiskNode} {q : Place} (h : node.IsTidy)
    (hdir : node.kind = .directory) :
    q ∈ node.filePlaces ↔ ∃ bytes, node.kindAt? q = some (.file bytes) := by
  rw [filePlaces, List.mem_filter, h.mem_places_iff]
  simp only [DiskNode.kindAt?_eq_file]
  constructor
  · rintro ⟨⟨-, hsome⟩, hfile⟩
    obtain ⟨found, hfound⟩ := Option.isSome_iff_exists.mp hsome
    rw [hfound, Option.any_some] at hfile
    cases found with
    | file bytes => exact ⟨bytes, hfound⟩
    | link target => cases hfile
    | directory entries => cases hfile
  · rintro ⟨bytes, hat⟩
    refine ⟨⟨?_, hat ▸ rfl⟩, by rw [hat]; rfl⟩
    rintro rfl
    rw [Option.some.inj hat] at hdir
    cases hdir

namespace Disk.Sound

variable {d : Disk} {top q : Place} {bytes : List UInt8} {node : DiskNode}

/-- The place of a file below a directory is not the directory. -/
theorem ne_nil_of_file (hdir : d.root.kindAt? top = some .directory)
    (hfile : d.root.kindAt? (top ++ q) = some (.file bytes)) : q ≠ [] := by
  rintro rfl
  rw [List.append_nil, hdir] at hfile
  cases hfile

/-- What is read back from a path that is listed below a directory. -/
theorem ofText_listed (htop : top ≠ []) (hq : q ≠ []) (hcan : CanName (top ++ q)) :
    Path.ofText ((pathOf top).listed (Path.mk .relative q).toText) = pathOf (top ++ q) := by
  rw [← @Path.toText_below (pathOf top) q htop hq]
  exact Path.ofText_toText hcan.isRead

theorem canName_of_file (h : d.Sound) (hfile : d.root.kindAt? (top ++ q) = some (.file bytes)) :
    CanName (top ++ q) := (h.takes (top ++ q) (by rw [hfile]; rfl)).canName

theorem isName_of_file (h : d.Sound) (hfile : d.root.kindAt? (top ++ q) = some (.file bytes)) :
    ∀ name ∈ q, Path.IsName name := by
  intro name hname
  exact (h.canName_of_file hfile).isName name (List.mem_append_right _ hname)

/-- The files below a directory are at the places where files are. -/
theorem mem_filePlaces_iff {entries : List (String × DiskNode)} (h : d.Sound)
    (hat : d.root.at? top = some (.directory entries)) :
    q ∈ (DiskNode.directory entries).filePlaces
      ↔ ∃ bytes, d.root.kindAt? (top ++ q) = some (.file bytes) := by
  rw [(h.tidy.at? hat).mem_filePlaces_iff rfl, DiskNode.kindAt?_append hat]

/-- The paths of the files below a directory are listed, in order. -/
theorem listFiles (h : d.Sound) (hat : d.root.at? top = some node) (hdir : node.kind = .directory) :
    (LocalFiles.mk d none).listFiles true (pathOf top)
      = .ok (sortPaths (node.filePlaces.map fun q => (pathOf (top ++ q)).toText)) := by
  have htop : Takes top := h.takes top (by rw [DiskNode.kindAt?, hat]; rfl)
  have hbelow : ∀ q, d.root.at? (top ++ q) = node.at? q := fun q => by
    rw [DiskNode.at?_append, hat, Option.bind_some]
  obtain ⟨entries, hentries⟩ := DiskNode.kind_eq_directory.mp hdir
  rw [LocalFiles.listFiles_eq_ok_iff]
  refine ⟨node, node.filePlaces.map (pathOf top).below, (h.find_eq_ok_iff htop.canName).mpr hat,
    by rw [hentries]; rfl, ?_, ?_⟩
  · rw [if_pos rfl, DiskNode.paths_eq]
    show ((node.places.map (pathOf top).below).filterM d.isFile) = _
    rw [@Except.filterM_of_ok _ _ d.isFile (node.places.map (pathOf top).below)
      fun p => (d.root.at? p.parts).any (·.bytes?.isSome), List.filter_map]
    · have hfile : ((fun p : Path => (d.root.at? p.parts).any (·.bytes?.isSome)) ∘ (pathOf top).below)
          = fun q => (node.at? q).any (·.bytes?.isSome) := funext fun q => by
        rw [← hbelow]
        rfl
      rw [hfile]
      rfl
    · intro p hp
      obtain ⟨q, hq, rfl⟩ := List.mem_map.mp hp
      have hsome := ((h.tidy.at? hat).mem_places_iff.mp hq).2
      have htakes : Takes (top ++ q) := h.takes _ (by
        rw [DiskNode.kindAt?, hbelow, Option.isSome_map]
        exact hsome)
      exact h.test_eq htakes _
  · rw [List.map_map]
    rfl

end Disk.Sound

namespace MemoryFiles

variable {files : MemoryFiles} {d : Disk} {top q : Place}

section Mirror

variable (h : files.Mirrors d top) (hd : d.Sound) (htop : top ≠ [])
  (hdir : d.root.kindAt? top = some .directory)
include h hd htop hdir

/-- The files that are listed below the directory are those in memory, in the same order. -/
theorem Mirrors.listFiles :
    (LocalFiles.mk d none).listFiles true (pathOf top)
      = .ok ((sortPaths files.keys).map (pathOf top).listed) := by
  obtain ⟨entries, hat⟩ := DiskNode.kindAt?_eq_directory.mp hdir
  have htext : ∀ {q bytes}, d.root.kindAt? (top ++ q) = some (.file bytes) →
      (pathOf (top ++ q)).toText = (pathOf top).listed (Path.mk .relative q).toText := fun hfile =>
    @Path.toText_below (pathOf top) _ htop (Disk.Sound.ne_nil_of_file hdir hfile)
  rw [hd.listFiles hat rfl, ← sortPaths_map (Path.listed_le_listed_iff _)]
  congr 1
  apply sortPaths_eq_of_perm
  rw [List.perm_ext_iff_of_nodup]
  · intro path
    rw [List.mem_map, List.mem_map]
    constructor
    · rintro ⟨q, hq, rfl⟩
      obtain ⟨bytes, hfile⟩ := (hd.mem_filePlaces_iff hat).mp hq
      exact ⟨_, h.mem_keys_iff.mpr ⟨q, bytes, rfl, hfile⟩, (htext hfile).symm⟩
    · rintro ⟨key, hkey, rfl⟩
      obtain ⟨q, bytes, rfl, hfile⟩ := h.mem_keys_iff.mp hkey
      exact ⟨q, (hd.mem_filePlaces_iff hat).mpr ⟨bytes, hfile⟩, htext hfile⟩
  · apply List.Nodup.map_on _ ((hd.tidy.at? hat).nodup_places.filter _)
    intro q hq q' hq' hsame
    obtain ⟨bytes, hfile⟩ := (hd.mem_filePlaces_iff hat).mp hq
    obtain ⟨bytes', hfile'⟩ := (hd.mem_filePlaces_iff hat).mp hq'
    have hpath := (Path.toText_inj (hd.canName_of_file hfile).isRead
      (hd.canName_of_file hfile').isRead).mp hsame
    exact List.append_cancel_left (Path.mk.inj hpath).2
  · exact h.nodup.map fun _ _ heq => Path.listed_inj.mp heq

/-- A file below the directory is read as the file in memory is, and counts if that one does. -/
theorem Mirrors.exists_source {key : String} (hkey : key ∈ files.keys) :
    ∃ source, files.readText key = .ok source
      ∧ (LocalFiles.mk d none).readText (Path.ofText ((pathOf top).listed key)) = .ok source
      ∧ ∀ excludes extensions, Search.keeps (pathOf top) excludes extensions ((pathOf top).listed key)
        = Search.keeps ⟨.relative, []⟩ excludes extensions key := by
  obtain ⟨q, bytes, rfl, hfile⟩ := h.mem_keys_iff.mp hkey
  have hne := Disk.Sound.ne_nil_of_file hdir hfile
  have hcan := hd.canName_of_file hfile
  refine ⟨_, h.readText hfile, ?_, ?_⟩
  · rw [Disk.Sound.ofText_listed htop hne hcan, LocalFiles.readText_eq_ok_iff]
    refine ⟨bytes, Disk.readBytes_of_find ?_, rfl⟩
    exact (hd.find_eq_ok_iff hcan).mpr (DiskNode.kindAt?_eq_file.mp hfile)
  · exact @Search.keeps_listed (pathOf top) q htop hne (hd.isName_of_file hfile)
      hcan.of_append.isRead

/-- **A search of the directory gives what a search of the files in memory gives,** at the paths
below the directory. -/
theorem Mirrors.scanDirectory (tokens : Tokenizer) (config : Config) :
    ∃ ds, (Search.mk files.filesystem config : Search tokens).scanDirectory ⟨.relative, []⟩ = .ok ds
      ∧ (∀ x ∈ ds, x.path ∈ files.keys)
      ∧ (Search.mk (LocalFiles.mk d none).filesystem config : Search tokens).scanDirectory
          (pathOf top)
        = .ok (ds.map (·.mapPath (pathOf top).listed)) := by
  have hsource : ∀ key ∈ files.keys, _ := fun key hkey => h.exists_source hd htop hdir hkey
  choose! source hmemory hlocal hkeeps using hsource
  have hsorted : ∀ key ∈ sortPaths files.keys, key ∈ files.keys := fun key =>
    List.mem_mergeSort.mp
  have hscan := @Search.scanDirectory_of_scanFile tokens (Search.mk files.filesystem config)
    ⟨.relative, []⟩ (sortPaths files.keys) (listFiles_here files)
    (fun key => Search.scanSource tokens (source key) key)
    fun key hkey _ => Search.scanFile_of_readText (hmemory key (hsorted key hkey))
  refine ⟨_, hscan, ?_, ?_⟩
  · intro x hx
    obtain ⟨key, hkey, hx⟩ := List.mem_flatMap.mp hx
    rw [Search.path_of_mem_scanSource hx]
    exact hsorted key (List.mem_filter.mp hkey).1
  · have hlocalscan := @Search.scanDirectory_of_map tokens
      (Search.mk (LocalFiles.mk d none).filesystem config) (pathOf top) _ _
      (h.listFiles hd htop hdir)
      (fun key => Search.scanSource tokens (source key) ((pathOf top).listed key)) fun key hkey =>
        Search.scanFile_of_readText (hlocal key (hsorted key hkey))
    -- the same files count, and they declare the same
    have hkept : (sortPaths files.keys).filter
          (fun key => Search.keeps (pathOf top) config.excludes config.extensions
            ((pathOf top).listed key))
        = (sortPaths files.keys).filter
          (Search.keeps ⟨.relative, []⟩ config.excludes config.extensions) :=
      List.filter_congr fun key hkey => hkeeps key (hsorted key hkey) _ _
    rw [hlocalscan, hkept, List.map_flatMap]
    congr 1
    apply List.flatMap_congr
    intro key hkey
    rw [Search.scanSource_mapPath]

end Mirror

/-- The files below a node, by their paths relative to it. -/
def ofNode (node : DiskNode) : MemoryFiles :=
  node.filePlaces.map fun q => ((Path.mk .relative q).toText,
    .ok (Text.Utf8.decode (((node.at? q).bind (·.bytes?)).getD [])))

/-- **The files below a directory can be held in memory.** -/
theorem exists_mirrors (hd : d.Sound) (hdir : d.root.kindAt? top = some .directory) :
    ∃ files : MemoryFiles, files.Mirrors d top := by
  obtain ⟨entries, hat⟩ := DiskNode.kindAt?_eq_directory.mp hdir
  have hnodup : (ofNode (DiskNode.directory entries)).keys.Nodup := by
    rw [ofNode, Entries.keys, List.map_map]
    apply List.Nodup.map_on _ ((hd.tidy.at? hat).nodup_places.filter _)
    intro q hq q' hq' htext
    have hread : ∀ q ∈ (DiskNode.directory entries).filePlaces, (Path.mk .relative q).IsRead := by
      intro q hq name hname
      obtain ⟨bytes, hfile⟩ := (hd.mem_filePlaces_iff hat).mp hq
      exact (hd.isName_of_file hfile name hname).1
    exact (Path.mk.inj ((Path.toText_inj (hread q hq) (hread q' hq')).mp htext)).2
  refine ⟨ofNode (.directory entries), hnodup, fun path content => ?_⟩
  rw [Entries.find?_eq_some_iff hnodup, ofNode, List.mem_map]
  simp only [Prod.mk.injEq, hd.mem_filePlaces_iff hat]
  have hcontent : ∀ {q bytes}, d.root.kindAt? (top ++ q) = some (.file bytes) →
      (DiskNode.directory entries).at? q = some (.file bytes) := by
    intro q bytes hfile
    rwa [DiskNode.kindAt?_append hat, DiskNode.kindAt?_eq_file] at hfile
  constructor
  · rintro ⟨q, ⟨bytes, hfile⟩, rfl, rfl⟩
    exact ⟨q, bytes, rfl, hfile, by rw [hcontent hfile]; rfl⟩
  · rintro ⟨q, bytes, rfl, hfile, rfl⟩
    exact ⟨q, ⟨bytes, hfile⟩, rfl, by rw [hcontent hfile]; rfl⟩

end MemoryFiles

end ClassLineage
