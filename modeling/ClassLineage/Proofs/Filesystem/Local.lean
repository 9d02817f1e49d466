import ClassLineage.Filesystem.Local
import ClassLineage.Proofs.Disk
import ClassLineage.Proofs.Search

/-!
# Reading what has been listed

A listing gives the texts of paths that start with the base, and reading puts the base
before them again.  This does no harm where the base or the directory is absolute, or
where there is no base to speak of.  Otherwise reading ends below the base twice.

## Main definitions

* `LocalFiles.Lists` — a file is listed, with its bytes.
* `LocalFiles.Reads` — a file is there, and is read with given bytes.
* `LocalFiles.rejoins` — what is listed is read below the base twice.
* `LocalFiles.FindsAgain` — a listed file is found where it is read.

## Main results

* `LocalFiles.exists_lists` — all that is listed is a file below the directory.
* `LocalFiles.path_below`, `LocalFiles.path_below_of_rejoins` — where a listed path leads
  when it is read.
* `LocalFiles.reads_listed_iff` — **when exactly listed files are read,** and what a
  search makes of it.
-/

namespace ClassLineage

/-! ### Candidates -/

namespace DiskNode

mutual

/-- The paths below a node are those of its places. -/
theorem paths_eq (p : Path) : ∀ node : DiskNode, node.paths p = node.places.map p.below
  | .file _ => rfl
  | .link _ => rfl
  | .directory entries => pathsOf_eq p entries

theorem pathsOf_eq (p : Path) :
    ∀ entries : List (String × DiskNode), pathsOf p entries = (placesOf entries).map p.below
  | [] => rfl
  | (name, node) :: rest => by
    rw [pathsOf, placesOf, paths_eq (p.child name) node, pathsOf_eq p rest, List.map_append,
      List.map_cons, List.map_map]
    have hchild : (p.child name).below = p.below ∘ (name :: ·) := funext fun q => by
      rw [Path.child_eq_below, Path.below_below]
      rfl
    rw [hchild]
    rfl

end

/-- The path of an entry is that of one of the places. -/
theorem exists_of_mem_children {p c : Path} {node : DiskNode} (h : c ∈ node.children p) :
    ∃ place ∈ node.places, c = p.below place := by
  cases node with
  | file bytes => exact absurd h (by simp [children])
  | link target => exact absurd h (by simp [children])
  | directory entries =>
    obtain ⟨e, he, rfl⟩ := List.mem_map.mp h
    exact ⟨[e.1], mem_placesOf.mpr ⟨e, he, Or.inl rfl⟩, rfl⟩

end DiskNode

namespace LocalFiles

/-! ### What is listed -/

/-- A file is listed for a directory, with its bytes: its path is that of a place below the
directory, and the bytes are what the system has there, which is the file's own unless a
link stands at the place. -/
def Lists (files : LocalFiles) (directory : Path) (p : String) (bytes : List UInt8) : Prop :=
  ∃ node, files.disk.find (files.path directory) = .ok node ∧ ∃ place ∈ node.places,
    p = ((files.path directory).below place).toText
      ∧ files.disk.readBytes ((files.path directory).below place) = .ok bytes
      ∧ ∀ own, node.at? place = some (.file own) → own = bytes

section Listing

variable {files : LocalFiles} {recursive : Bool} {directory : Path} {listing : List String}
  {p : String}

/-- A listing goes well if there is a directory, and what it holds can be tested. -/
theorem listFiles_eq_ok_iff :
    files.listFiles recursive directory = .ok listing ↔ ∃ node found,
      files.disk.find (files.path directory) = .ok node ∧ node.isDirectory = true
        ∧ (if recursive then node.paths (files.path directory)
            else node.children (files.path directory)).filterM files.disk.isFile = .ok found
        ∧ sortPaths (found.map Path.toText) = listing := by
  rw [listFiles, Disk.isDirectory, Disk.test]
  cases hfind : files.disk.find (files.path directory) with
  | error e =>
    cases e <;> simp [ofSystem, Except.mapError, bind, Except.bind, SystemError.isAbsence]
  | ok node =>
    cases hdir : node.isDirectory with
    | false => simp [ofSystem, Except.mapError, bind, Except.bind, hdir]
    | true =>
      simp only [ofSystem, Except.mapError, bind, Except.bind, hdir, if_true]
      split
      · next found hfound => simp [pure, Except.pure, hdir, hfound]
      · next e herror => simp [hdir, herror]

/-- **All that is listed is a file below the directory.** -/
theorem exists_lists (hnames : files.disk.root.HasNames) (hread : (files.path directory).IsRead)
    (h : files.listFiles recursive directory = .ok listing) (hp : p ∈ listing) :
    ∃ bytes, files.Lists directory p bytes := by
  obtain ⟨node, found, hfind, -, hfound, rfl⟩ := listFiles_eq_ok_iff.mp h
  rw [sortPaths, List.mem_mergeSort, List.mem_map] at hp
  obtain ⟨c, hc, rfl⟩ := hp
  obtain ⟨htested, rfl⟩ := Except.filterM_eq_ok hfound
  obtain ⟨hc, hpasses⟩ := List.mem_filter.mp hc
  have hfile : files.disk.isFile c = .ok true := hpasses ▸ htested c hc
  obtain ⟨place, hplace, rfl⟩ : ∃ place ∈ node.places, c = (files.path directory).below place := by
    cases recursive with
    | true =>
      rw [if_pos rfl, DiskNode.paths_eq, List.mem_map] at hc
      obtain ⟨place, hplace, rfl⟩ := hc
      exact ⟨place, hplace, rfl⟩
    | false => exact DiskNode.exists_of_mem_children hc
  obtain ⟨bytes, hbytes⟩ := Disk.isFile_iff.mp hfile
  refine ⟨bytes, node, hfind, place, hplace, rfl, hbytes, fun own hown => ?_⟩
  obtain ⟨at', _, hat⟩ := Disk.find_eq_ok_iff.mp hfind
  -- what the system finds at the path is the file itself, unless a link stands there
  have hfile := Disk.find_below hread hfind (hnames.at? hat place hplace) hown (fun _ => by simp)
    (Disk.find_of_readBytes hbytes)
  exact (DiskNode.file.inj hfile).symm

/-- Where a directory holds one file and nothing else, that file is listed. -/
theorem listFiles_singleton {name : String} {bytes : List UInt8}
    (hdir : files.disk.find (files.path directory) = .ok (.directory [(name, .file bytes)]))
    (hfile : files.disk.find ((files.path directory).child name) = .ok (.file bytes)) :
    files.listFiles recursive directory = .ok [((files.path directory).child name).toText] := by
  have htest : files.disk.isFile ((files.path directory).child name) = .ok true :=
    Disk.isFile_iff.mpr ⟨bytes, Disk.readBytes_of_find hfile⟩
  refine listFiles_eq_ok_iff.mpr ⟨_, [(files.path directory).child name], hdir, rfl, ?_, ?_⟩
  · have hcandidates : (if recursive then
          (DiskNode.directory [(name, .file bytes)]).paths (files.path directory)
        else (DiskNode.directory [(name, .file bytes)]).children (files.path directory))
        = [(files.path directory).child name] := by
      cases recursive <;> rfl
    rw [hcandidates, List.filterM, List.filterAuxM, htest]
    rfl
  · exact List.mergeSort_singleton _

/-- The text of a path that is listed is read as that path. -/
theorem Lists.ofText {bytes : List UInt8} (hnames : files.disk.root.HasNames)
    (hread : (files.path directory).IsRead) (h : files.Lists directory p bytes) :
    files.disk.readBytes (Path.ofText p) = .ok bytes
      ∧ ∃ place, Path.ofText p = (files.path directory).below place := by
  obtain ⟨node, hfind, place, hplace, rfl, hbytes, -⟩ := h
  obtain ⟨at', _, hat⟩ := Disk.find_eq_ok_iff.mp hfind
  have hbelow := hread.below fun name hname => (hnames.at? hat place hplace name hname).1
  rw [Path.ofText_toText hbelow]
  exact ⟨hbytes, place, rfl⟩

end Listing

/-! ### Reading -/

/-- A file is there, and its text is that of the given bytes. -/
def Reads (files : LocalFiles) (p : String) (bytes : List UInt8) : Prop :=
  files.disk.isFile (files.path (Path.ofText p)) = .ok true
    ∧ files.readText (Path.ofText p) = .ok (Text.Utf8.decode bytes)

/-- What is listed for the directory is read below the base twice: base and directory are
relative, and the base leads somewhere. -/
def rejoins (files : LocalFiles) (directory : Path) : Bool :=
  match files.base with
  | some base => !base.isAbsolute && !base.parts.isEmpty && !directory.isAbsolute
  | none => false

/-- At two paths of a disk, files of one and the same text are read. -/
def SameText (disk : Disk) (p q : Path) : Prop :=
  ∃ bytes other, disk.readBytes p = .ok bytes ∧ disk.readBytes q = .ok other
    ∧ Text.Utf8.decode bytes = Text.Utf8.decode other

/-- A file that is listed for the directory is found where it is read: it is not read below
the base twice, or else a file of the same text stands there. -/
def FindsAgain (files : LocalFiles) (directory : Path) (p : String) : Prop :=
  files.rejoins directory = false
    ∨ SameText files.disk (Path.ofText p) (files.path (Path.ofText p))

section Reading

variable {files : LocalFiles} {directory : Path} {p : String} {bytes : List UInt8}

/-- A file is read where its path leads, the base being taken into account. -/
theorem readText_eq_ok_iff {q : Path} {text : String} :
    files.readText q = .ok text ↔ ∃ bytes, files.disk.readBytes (files.path q) = .ok bytes
      ∧ Text.Utf8.decode bytes = text := by
  rw [readText, readBytes]
  cases files.disk.readBytes (files.path q) with
  | ok bytes => simp [Functor.map, Except.map]
  | error e => cases e <;> simp [Functor.map, Except.map]

/-- Where nothing is, no text is read. -/
theorem readText_of_noEntry {q : Path} (h : files.disk.readBytes (files.path q) = .error .noEntry) :
    files.readText q = .error (.file (.fileNotFound (files.path q).toText)) := by
  rw [readText, readBytes, h]
  rfl

/-- A file has gone for a search if nothing is there where its path leads. -/
theorem scanFile_of_noEntry (tokens : Tokenizer) (config : Config)
    (h : files.disk.readBytes (files.path (Path.ofText p)) = .error .noEntry) :
    (Search.mk files.filesystem config : Search tokens).scanFile p = .ok [] :=
  Search.scanFile_of_isVanished (readText_of_noEntry h) rfl

theorem reads_iff_sameText (h : files.disk.readBytes (Path.ofText p) = .ok bytes) :
    files.Reads p bytes ↔ SameText files.disk (Path.ofText p) (files.path (Path.ofText p)) := by
  rw [Reads, Disk.isFile_iff, readText_eq_ok_iff]
  constructor
  · rintro ⟨-, other, hother, htext⟩
    exact ⟨bytes, other, h, hother, htext.symm⟩
  · rintro ⟨bytes', other, hbytes, hother, htext⟩
    obtain rfl : bytes = bytes' := Except.ok.inj (h.symm.trans hbytes)
    exact ⟨⟨other, hother⟩, other, hother, htext.symm⟩

/-- A path below the directory is read where it leads, if base and directory allow. -/
theorem path_below (hroot : files.rejoins directory = false) (place : List String) :
    files.path ((files.path directory).below place) = (files.path directory).below place := by
  rw [rejoins] at hroot
  cases hbase : files.base with
  | none => simp only [path, hbase]
  | some base =>
    -- an absolute path stays itself, and a base without parts adds nothing
    simp only [path, hbase] at hroot ⊢
    cases hdir : directory.isAbsolute with
    | true =>
      rw [Path.join_of_isAbsolute hdir]
      exact Path.join_of_isAbsolute hdir
    | false =>
      rw [Path.join_of_relative hdir]
      cases habs : base.isAbsolute with
      | true => exact Path.join_of_isAbsolute habs
      | false =>
        obtain ⟨lead, parts⟩ := base
        obtain rfl : parts = [] := by simpa [hdir, habs] using hroot
        exact Path.join_of_relative habs

/-- Otherwise it starts with the base, and is read below the base twice. -/
theorem path_below_of_rejoins (hroot : files.rejoins directory = true) (place : List String) :
    ∃ base, files.base = some base ∧ base.parts ≠ [] ∧ ∃ rest,
      (files.path directory).below place = base.below rest
        ∧ files.path ((files.path directory).below place) = base.below (base.parts ++ rest) := by
  rw [rejoins] at hroot
  cases hbase : files.base with
  | none => simp [hbase] at hroot
  | some base =>
    simp only [hbase, Bool.and_eq_true, Bool.not_eq_true'] at hroot
    obtain ⟨⟨habs, hparts⟩, hdir⟩ := hroot
    refine ⟨base, rfl, by simpa using hparts, directory.parts ++ place, ?_⟩
    simp only [path, hbase]
    rw [Path.join_of_relative hdir, Path.below_below]
    exact ⟨rfl, Path.join_of_relative habs⟩

end Reading

/-! ### Reading what has been listed -/

/-- The files of a disk, with the base path that a text writes, if there is one. -/
def ofText (disk : Disk) (base : Option String) : LocalFiles := ⟨disk, base.map Path.ofText⟩

theorem isRead_path (disk : Disk) (base : Option String) (directory : String) :
    ((ofText disk base).path (Path.ofText directory)).IsRead := by
  cases base with
  | none => exact Path.isRead_ofText directory
  | some base => exact (Path.isRead_ofText base).join (Path.isRead_ofText directory)

section Listed

variable {disk : Disk} {base : Option String} {directory p : String} {bytes : List UInt8}

/-- **A listed file is read exactly if it is found again.** -/
theorem reads_iff (hnames : disk.root.HasNames)
    (h : (ofText disk base).Lists (Path.ofText directory) p bytes) :
    (ofText disk base).Reads p bytes
      ↔ (ofText disk base).FindsAgain (Path.ofText directory) p := by
  obtain ⟨hbytes, place, hplace⟩ := h.ofText hnames (isRead_path disk base directory)
  have hsame := reads_iff_sameText hbytes
  constructor
  · intro hreads
    exact Or.inr (hsame.mp hreads)
  · rintro (hroot | htext)
    · refine hsame.mpr ⟨bytes, bytes, hbytes, ?_, rfl⟩
      rw [hplace, path_below hroot, ← hplace]
      exact hbytes
    · exact hsame.mpr htext

/-- A listed file that is read counts for a search with what it declares. -/
theorem scanFile_of_reads (tokens : Tokenizer) (config : Config)
    (h : (ofText disk base).Reads p bytes) :
    (Search.mk (ofText disk base).filesystem config : Search tokens).scanFile p
      = .ok (Search.scanSource tokens (Text.Utf8.decode bytes) p) :=
  Search.scanFile_of_readText h.2

end Listed

/-- **When exactly listed files are read.**  All that is listed is a file below the
directory; it is there and is read with its own content exactly if it is found again.  What
is rejoined is looked for below the base twice.  A search gives what the files that count
declare, each with its own content, if these are found again. -/
theorem reads_listed_iff (disk : Disk) (base : Option String) (directory : String)
    (recursive : Bool) {listing : List String} (hnames : disk.root.HasNames)
    (hlist : (ofText disk base).listFiles recursive (Path.ofText directory) = .ok listing) :
    (∀ p ∈ listing, ∃ bytes, (ofText disk base).Lists (Path.ofText directory) p bytes
      ∧ ((ofText disk base).Reads p bytes
        ↔ (ofText disk base).FindsAgain (Path.ofText directory) p))
    ∧ ((ofText disk base).rejoins (Path.ofText directory) = true →
      ∀ p ∈ listing, ∃ lead, (ofText disk base).base = some lead ∧ lead.parts ≠ [] ∧ ∃ rest,
        Path.ofText p = lead.below rest
          ∧ (ofText disk base).path (Path.ofText p) = lead.below (lead.parts ++ rest))
    ∧ (recursive = true → ∀ (tokens : Tokenizer) (config : Config),
      (∀ p ∈ listing,
        Search.keeps (Path.ofText directory) config.excludes config.extensions p = true →
          (ofText disk base).FindsAgain (Path.ofText directory) p) →
      ∃ content : String → List UInt8,
        (∀ p ∈ listing, (ofText disk base).Lists (Path.ofText directory) p (content p))
        ∧ (Search.mk (ofText disk base).filesystem config : Search tokens).scanDirectory
            (Path.ofText directory)
          = .ok ((listing.filter
              (Search.keeps (Path.ofText directory) config.excludes config.extensions)).flatMap
              fun p => Search.scanSource tokens (Text.Utf8.decode (content p)) p)) := by
  have hread := isRead_path disk base directory
  have hlists : ∀ p ∈ listing, ∃ bytes, (ofText disk base).Lists (Path.ofText directory) p bytes :=
    fun p hp => exists_lists hnames hread hlist hp
  refine ⟨fun p hp => ?_, fun hroot p hp => ?_, fun hrec tokens config hkept => ?_⟩
  · obtain ⟨bytes, hbytes⟩ := hlists p hp
    exact ⟨bytes, hbytes, reads_iff hnames hbytes⟩
  · obtain ⟨bytes, hbytes⟩ := hlists p hp
    obtain ⟨-, place, hplace⟩ := hbytes.ofText hnames hread
    rw [hplace]
    exact path_below_of_rejoins hroot place
  · choose! content hcontent using hlists
    subst hrec
    refine ⟨content, hcontent, Search.scanDirectory_of_scanFile hlist fun p hp hkeep => ?_⟩
    exact scanFile_of_reads tokens config ((reads_iff hnames (hcontent p hp)).mpr (hkept p hp hkeep))

/-! ### A project -/

/-- The source of a project. -/
def projectSource : List UInt8 := Text.Utf8.encode "<?php class A \x7b\x7d"

/-- A disk that holds a project of one source, next to which one stands. -/
def projectDisk : Disk where
  root := .directory [("work", .directory [("proj", .directory [("src", .directory
    [("A.php", .file projectSource)])])])]
  here := ["work"]

theorem hasNames_projectDisk : projectDisk.root.HasNames := by decide +kernel

/-- Below an absolute base, the source of the project is listed and read. -/
theorem reads_listed_iff_project :
    projectDisk.root.HasNames
    ∧ (ofText projectDisk (some "/work/proj")).listFiles true (Path.ofText "src")
        = .ok ["/work/proj/src/A.php"]
    ∧ ∃ bytes, (ofText projectDisk (some "/work/proj")).Lists (Path.ofText "src")
          "/work/proj/src/A.php" bytes
        ∧ (ofText projectDisk (some "/work/proj")).Reads "/work/proj/src/A.php" bytes := by
  have hlist : (ofText projectDisk (some "/work/proj")).listFiles true (Path.ofText "src")
      = .ok ["/work/proj/src/A.php"] := by
    have hroot : (ofText projectDisk (some "/work/proj")).path (Path.ofText "src")
        = ⟨.root, ["work", "proj", "src"]⟩ := by decide
    have hlisted := @listFiles_singleton (ofText projectDisk (some "/work/proj")) true
      (Path.ofText "src") "A.php" projectSource
    rw [hroot] at hlisted
    exact hlisted (Disk.find_of_at? (by decide) rfl (by simp) (by decide) (by decide))
      (Disk.find_of_at? (by decide) rfl (by simp) (by decide) (by decide))
  obtain ⟨hreads, -, -⟩ :=
    reads_listed_iff projectDisk (some "/work/proj") "src" true hasNames_projectDisk hlist
  obtain ⟨bytes, hlists, hiff⟩ := hreads _ List.mem_cons_self
  exact ⟨hasNames_projectDisk, hlist, bytes, hlists, hiff.mpr (Or.inl (by decide))⟩

/-- **Below a relative base it is listed, but not read:** it is looked for below the base
twice, and a search takes it for a file that has gone. -/
theorem not_reads_listed_project :
    projectDisk.root.HasNames
    ∧ (ofText projectDisk (some "proj")).listFiles true (Path.ofText "src") = .ok ["proj/src/A.php"]
    ∧ projectDisk.readBytes (Path.ofText "proj/src/A.php") = .ok projectSource
    ∧ projectDisk.isFile ((ofText projectDisk (some "proj")).path (Path.ofText "proj/src/A.php"))
        = .ok false
    ∧ (ofText projectDisk (some "proj")).readText (Path.ofText "proj/src/A.php")
        = .error (.file (.fileNotFound "proj/proj/src/A.php"))
    ∧ (Search.standard (ofText projectDisk (some "proj")).filesystem).scanDirectory
        (Path.ofText "src") = .ok []
    ∧ (Search.scanSource Php.tokens (Text.Utf8.decode projectSource) "proj/src/A.php").map (·.name)
        = ["A"] := by
  have hdir : projectDisk.find ⟨.relative, ["proj", "src"]⟩
      = .ok (.directory [("A.php", .file projectSource)]) :=
    Disk.find_of_at? (by decide) rfl (by simp) (by decide) (by decide)
  have hfile : projectDisk.find ⟨.relative, ["proj", "src", "A.php"]⟩ = .ok (.file projectSource) :=
    Disk.find_of_at? (by decide) rfl (by simp) (by decide) (by decide)
  have hlist : (ofText projectDisk (some "proj")).listFiles true (Path.ofText "src")
      = .ok ["proj/src/A.php"] := by
    have hroot : (ofText projectDisk (some "proj")).path (Path.ofText "src")
        = ⟨.relative, ["proj", "src"]⟩ := by decide
    have hlisted := @listFiles_singleton (ofText projectDisk (some "proj")) true
      (Path.ofText "src") "A.php" projectSource
    rw [hroot] at hlisted
    exact hlisted hdir hfile
  have hpath : (ofText projectDisk (some "proj")).path (Path.ofText "proj/src/A.php")
      = ⟨.relative, ["proj", "proj", "src", "A.php"]⟩ := by decide
  have habsent : projectDisk.find ⟨.relative, ["proj", "proj", "src", "A.php"]⟩
      = .error .noEntry := by
    have hfollow : Disk.follow projectDisk.root Disk.maxLinks ["work"]
        ["proj", "proj", "src", "A.php"] = .error .noEntry := by
      rw [@Disk.follow_name _ _ _ _ _ _ rfl (by decide) (by decide) (by decide) _ (by simp) rfl,
        Disk.follow]
      rfl
    have htext := @Disk.followText_toText projectDisk ⟨.relative, ["proj", "proj", "src", "A.php"]⟩
      (by unfold Path.IsRead; decide) (by decide)
    rw [Disk.find, Disk.findText, htext]
    exact congrArg (· >>= _) hfollow
  have hread : projectDisk.readBytes
      ((ofText projectDisk (some "proj")).path (Path.ofText "proj/src/A.php"))
      = .error .noEntry := by
    rw [hpath]
    exact congrArg (· >>= Disk.bytesOf) habsent
  refine ⟨hasNames_projectDisk, hlist, ?_, ?_, ?_, ?_, ?_⟩
  · exact Disk.readBytes_of_find hfile
  · rw [hpath, Disk.isFile, Disk.test, habsent]
    rfl
  · have htext := readText_of_noEntry hread
    rw [hpath] at htext
    exact htext
  · have hscan := @Search.scanDirectory_of_scanFile Php.tokens
      (Search.standard (ofText projectDisk (some "proj")).filesystem) _ _ hlist (fun _ => [])
      fun p hp _ => by
        obtain rfl := List.mem_singleton.mp hp
        exact scanFile_of_noEntry _ _ hread
    rw [hscan, List.flatMap_eq_nil_iff.mpr fun _ _ => rfl]
  · decide +kernel

end LocalFiles
end ClassLineage
