import ClassLineage.Proofs.Filesystem.Memory

/-!
# Excluded directories and the base of a filesystem

A search leaves out what lies in an excluded directory.  It looks for such directories among the
names of a listed path that follow those of the directory searched, as this is written.  But listed
paths start with the base of the filesystem.  So below a base names above the directory may count
among those below it.

## Main definitions

* `Search.countedAbove` — the names above the directory searched that count, if any.
* `Search.Matches` — a path has one of the suffixes that count.

## Main results

* `LocalFiles.directoriesOf_path_below` — the names that count are those above and those on the way
  from the directory searched to the file.
* `Search.countedAbove_eq_nil_iff` — when only the latter count.
* `LocalFiles.keeps_listed_iff` — when a listed file is kept.
* `LocalFiles.walk_countedAbove` — **a search keeps what it keeps below the directory to which base
  and directory lead, or nothing, if a name above that one counts and is excluded.**
-/

namespace ClassLineage

namespace Path

/-- What is below a path lies below another one as that path does, unless this one leads further. -/
theorem relativeTo?_below {top directory : Path} (h : directory.parts.length ≤ top.parts.length)
    (place : Place) :
    (top.below place).relativeTo? directory = (top.relativeTo? directory).map (· ++ place) := by
  have hprefix : directory.parts <+: top.parts ++ place ↔ directory.parts <+: top.parts :=
    ⟨fun hp => List.prefix_of_prefix_length_le hp (List.prefix_append _ _) h,
      fun hp => hp.trans (List.prefix_append _ _)⟩
  simp only [relativeTo?, below, List.isPrefixOf_iff_prefix, hprefix]
  split_ifs with hbelow
  · rw [Option.map_some, List.drop_append_of_le_length h]
  · rfl

theorem fullParts_below (p : Path) (place : Place) :
    (p.below place).fullParts = p.fullParts ++ place := by
  obtain ⟨lead, parts⟩ := p
  cases lead <;> rfl

end Path

namespace Search

/-- The names above the directory searched that count among those of the directories on the way to
a file.  Below an absolute base these are all names above, and the lead with them.  Below a relative
one, too, unless the names of the directory come first of all: then those after them. -/
def countedAbove (base : Option Path) (directory : Path) : List String :=
  match base with
  | none => []
  | some base =>
    if directory.isAbsolute then []
    else if base.isAbsolute then base.lead.text :: (base.parts ++ directory.parts)
    else if directory.parts <+: base.parts ++ directory.parts then
      (base.parts ++ directory.parts).drop directory.parts.length
    else base.parts ++ directory.parts

/-- No name above counts exactly if there is no base, or the directory is absolute, or the base is
relative and has no parts. -/
theorem countedAbove_eq_nil_iff {base : Option Path} {directory : Path} :
    countedAbove base directory = [] ↔ ∀ b, base = some b → directory.isAbsolute = true
      ∨ b.isAbsolute = false ∧ b.parts = [] := by
  cases base with
  | none => simp [countedAbove]
  | some b =>
    simp only [countedAbove, Option.some.injEq, forall_eq']
    split_ifs with hdir hbase hprefix
    · simp [hdir]
    · simp [hdir, hbase]
    · -- as many names are left as the base has
      rw [List.drop_eq_nil_iff, List.length_append, ← List.length_eq_zero_iff]
      simp [hdir, hbase]
    · have hne : b.parts ≠ [] := by
        intro hnil
        rw [hnil, List.nil_append] at hprefix
        exact hprefix List.prefix_rfl
      simp [hdir, hne]

/-- The suffix of a path is one of the extensions, whatever its case; the usual one is taken where
there are none. -/
def Matches (extensions : List String) (p : Path) : Prop :=
  Text.lower p.suffix
    ∈ (if extensions.isEmpty then Config.defaultExtensions else extensions).map Text.lower

theorem keeps_iff {directory : Path} {excludes extensions : List String} {p : String} :
    keeps directory excludes extensions p = true ↔ Matches extensions (Path.ofText p)
      ∧ ∀ name ∈ directoriesOf directory (Path.ofText p), name ∉ excludes := by
  simp only [keeps, Matches, Bool.and_eq_true, List.contains_iff_mem, Bool.not_eq_true',
    List.any_eq_false]

end Search

namespace LocalFiles

open Search

/-! ### Names that count -/

/-- What counts above the directory are the names that count of its own path. -/
theorem countedAbove_eq (files : LocalFiles) (directory : Path) :
    countedAbove files.base directory
      = ((files.path directory).relativeTo? directory).getD (files.path directory).fullParts := by
  have hself : directory.relativeTo? directory = some [] := by simp [Path.relativeTo?]
  cases hbase : files.base with
  | none => simp only [path, hbase, countedAbove, hself, Option.getD_some]
  | some base =>
    simp only [path, hbase, countedAbove]
    split_ifs with hdir habs hprefix
    · rw [Path.join_of_isAbsolute hdir, hself, Option.getD_some]
    all_goals
      have hlead : directory.lead = .relative := by simpa [Path.isAbsolute] using hdir
      rw [Path.join_of_relative (by simpa using hdir)]
    · -- an absolute path does not lie below a relative one
      have hne : base.lead ≠ .relative := by simpa [Path.isAbsolute] using habs
      simp [Path.relativeTo?, Path.fullParts, Path.isAbsolute, Path.below, hlead, hne]
    · have hrelative : base.lead = .relative := by simpa [Path.isAbsolute] using habs
      simp [Path.relativeTo?, Path.below, hlead, hrelative, hprefix]
    · have hrelative : base.lead = .relative := by simpa [Path.isAbsolute] using habs
      simp [Path.relativeTo?, Path.fullParts, Path.isAbsolute, Path.below, hlead, hrelative,
        hprefix]

/-- **The names that count are those above and those on the way** from the directory searched to
the file. -/
theorem directoriesOf_path_below (files : LocalFiles) (directory : Path) {place : Place}
    (hplace : place ≠ []) :
    directoriesOf directory ((files.path directory).below place)
      = countedAbove files.base directory ++ place.dropLast := by
  have hlong : directory.parts.length ≤ (files.path directory).parts.length := by
    rw [path]
    split
    · rw [Path.join]
      split_ifs <;> simp
    · exact Nat.le_refl _
  rw [countedAbove_eq, directoriesOf, Path.relativeTo?_below hlong, Path.fullParts_below,
    ← List.dropLast_append_of_ne_nil hplace]
  cases (files.path directory).relativeTo? directory <;> rfl

/-! ### Files that are kept -/

section Walk

theorem walk_filesystem (files : LocalFiles) (directory : Path)
    (excludes extensions : List String) :
    walk files.filesystem directory excludes extensions
      = (files.listFiles true directory).map
          (List.filter (keeps directory excludes extensions)) := by
  change (do return (← files.listFiles true directory).filter _) = _
  cases files.listFiles true directory <;> rfl

variable {disk : Disk} {base : Option String} {directory p : String}
  {excludes extensions listing : List String}

/-- What is listed is read as the path of a place below the directory to which base and directory
lead. -/
theorem exists_place (hnames : disk.root.HasNames)
    (hlist : (ofText disk base).listFiles true (Path.ofText directory) = .ok listing)
    (hp : p ∈ listing) :
    ∃ place : Place, place ≠ []
      ∧ Path.ofText p = ((ofText disk base).path (Path.ofText directory)).below place := by
  have hread := isRead_path disk base directory
  obtain ⟨bytes, hbytes⟩ := exists_lists hnames hread hlist hp
  obtain ⟨node, hfind, place, hplace, rfl, -⟩ := hbytes
  obtain ⟨at', -, hat⟩ := Disk.find_eq_ok_iff.mp hfind
  refine ⟨place, ?_, ?_⟩
  · rintro rfl
    exact DiskNode.nil_not_mem_places hplace
  · have hplain : ∀ name ∈ place, Path.IsPlain name := fun name hname =>
      (hnames.at? hat place hplace name hname).1
    exact Path.ofText_toText (hread.below hplain)

/-- **A listed file is kept** exactly if its suffix counts, and no name is excluded that counts
above the directory or stands between this and the file. -/
theorem keeps_listed_iff {place : Place} (hplace : place ≠ [])
    (hp : Path.ofText p = ((ofText disk base).path (Path.ofText directory)).below place) :
    keeps (Path.ofText directory) excludes extensions p = true ↔
      Matches extensions (Path.ofText p)
        ∧ (∀ name ∈ countedAbove (base.map Path.ofText) (Path.ofText directory), name ∉ excludes)
        ∧ ∀ name ∈ place.dropLast, name ∉ excludes := by
  have hdirectories := directoriesOf_path_below (ofText disk base) (Path.ofText directory) hplace
  rw [keeps_iff, hp, hdirectories]
  simp only [List.mem_append, or_imp, forall_and]
  rfl

/-- What is kept, in terms of what is kept where base and directory lead. -/
theorem walk_eq_map_bare (disk : Disk) (base : Option String) (directory : String)
    (excludes extensions : List String) (hnames : disk.root.HasNames) :
    walk (ofText disk base).filesystem (Path.ofText directory) excludes extensions
      = (walk (ofText disk none).filesystem ((ofText disk base).path (Path.ofText directory))
          excludes extensions).map
        (fun kept =>
          if ∀ name ∈ countedAbove (base.map Path.ofText) (Path.ofText directory), name ∉ excludes
          then kept else []) := by
  -- both list the files below the directory to which base and directory lead
  have hsame : (ofText disk none).listFiles true ((ofText disk base).path (Path.ofText directory))
      = (ofText disk base).listFiles true (Path.ofText directory) := rfl
  rw [walk_filesystem, walk_filesystem, hsame]
  cases hlist : (ofText disk base).listFiles true (Path.ofText directory) with
  | error e => rfl
  | ok listing =>
    simp only [Except.map, Except.ok.injEq]
    split_ifs with habove
    · refine List.filter_congr fun p hp => ?_
      obtain ⟨place, hplace, hread⟩ := exists_place hnames hlist hp
      rw [Bool.eq_iff_iff, keeps_listed_iff hplace hread, keeps_iff, hread, directoriesOf_below]
      exact and_congr_right fun _ => and_iff_right habove
    · refine List.filter_eq_nil_iff.mpr fun p hp hkept => habove ?_
      obtain ⟨place, hplace, hread⟩ := exists_place hnames hlist hp
      exact ((keeps_listed_iff hplace hread).mp hkept).2.1

/-- **Names above the directory searched may count,** as `countedAbove` tells.  If none of these is
excluded, the same is kept as below the directory to which base and directory lead, with the same
error if this cannot be listed; and else nothing is kept.  So the base makes no difference where the
directory is absolute or the base adds nothing.  A listed file is kept exactly if its suffix counts
and neither a name that counts above is excluded nor one between the directory and the file. -/
theorem walk_countedAbove (disk : Disk) (base : Option String) (directory : String)
    (excludes extensions : List String) (hnames : disk.root.HasNames) :
    walk (ofText disk base).filesystem (Path.ofText directory) excludes extensions
        = (walk (ofText disk none).filesystem ((ofText disk base).path (Path.ofText directory))
            excludes extensions).map
          (fun kept =>
            if ∀ name ∈ countedAbove (base.map Path.ofText) (Path.ofText directory), name ∉ excludes
            then kept else [])
      ∧ ((∀ b ∈ base.map Path.ofText, (Path.ofText directory).isAbsolute = true
            ∨ b.isAbsolute = false ∧ b.parts = []) →
          walk (ofText disk base).filesystem (Path.ofText directory) excludes extensions
            = walk (ofText disk none).filesystem ((ofText disk base).path (Path.ofText directory))
                excludes extensions)
      ∧ ∀ listing, (ofText disk base).listFiles true (Path.ofText directory) = .ok listing →
        ∀ p ∈ listing, ∃ place : Place, place ≠ []
          ∧ Path.ofText p = ((ofText disk base).path (Path.ofText directory)).below place
          ∧ (keeps (Path.ofText directory) excludes extensions p = true ↔
            Matches extensions (Path.ofText p)
              ∧ (∀ name ∈ countedAbove (base.map Path.ofText) (Path.ofText directory),
                name ∉ excludes)
              ∧ ∀ name ∈ place.dropLast, name ∉ excludes) := by
  have hwalk := walk_eq_map_bare disk base directory excludes extensions hnames
  refine ⟨hwalk, fun hbase => ?_, fun listing hlist p hp => ?_⟩
  · rw [hwalk, countedAbove_eq_nil_iff.mpr hbase]
    simp only [List.not_mem_nil, false_implies, implies_true, if_true]
    cases walk (ofText disk none).filesystem ((ofText disk base).path (Path.ofText directory))
      excludes extensions <;> rfl
  · obtain ⟨place, hplace, hread⟩ := exists_place hnames hlist hp
    exact ⟨place, hplace, hread, keeps_listed_iff hplace hread⟩

end Walk

/-! ### A directory whose name is excluded -/

/-- A disk with a directory that is often excluded, and a source below it. -/
def vendorDisk : Disk where
  root := .directory [("work", .directory [("vendor", .directory [("src", .directory
    [("A.php", .file projectSource)])])])]
  here := ["work"]

theorem hasNames_vendorDisk : vendorDisk.root.HasNames := by decide +kernel

/-- Where the source is listed, whether the root or the place of the disk leads to it. -/
theorem listFiles_vendorDisk {base : Option String} {directory : String} {lead : PathLead}
    {parts : List String}
    (hpath : (ofText vendorDisk base).path (Path.ofText directory) = ⟨lead, parts ++ ["src"]⟩)
    (hlead : lead = .root ∧ parts = ["work", "vendor"] ∨ lead = .relative ∧ parts = ["vendor"]) :
    (ofText vendorDisk base).listFiles true (Path.ofText directory)
      = .ok [(Path.mk lead (parts ++ ["src", "A.php"])).toText] := by
  have hlisted := @listFiles_singleton (ofText vendorDisk base) true (Path.ofText directory) "A.php"
    projectSource
  rw [hpath] at hlisted
  rcases hlead with ⟨rfl, rfl⟩ | ⟨rfl, rfl⟩
  · exact hlisted (Disk.find_of_at? (by decide) rfl (by simp) (by decide) (by decide))
      (Disk.find_of_at? (by decide) rfl (by simp) (by decide) (by decide))
  · exact hlisted (Disk.find_of_at? (by decide) rfl (by simp) (by decide) (by decide))
      (Disk.find_of_at? (by decide) rfl (by simp) (by decide) (by decide))

/-- Below an absolute base, nothing is kept of what is listed. -/
theorem walk_countedAbove_vendor :
    vendorDisk.root.HasNames
    ∧ (ofText vendorDisk (some "/work/vendor")).listFiles true (Path.ofText "src")
        = .ok ["/work/vendor/src/A.php"]
    ∧ walk (ofText vendorDisk (some "/work/vendor")).filesystem (Path.ofText "src") ["vendor"] []
        = .ok [] := by
  have hlist := @listFiles_vendorDisk (some "/work/vendor") "src" .root ["work", "vendor"]
    (by decide) (by decide)
  obtain ⟨hwalk, -, -⟩ :=
    walk_countedAbove vendorDisk (some "/work/vendor") "src" ["vendor"] [] hasNames_vendorDisk
  refine ⟨hasNames_vendorDisk, hlist, ?_⟩
  have habove : ¬ ∀ name ∈ countedAbove ((some "/work/vendor").map Path.ofText) (Path.ofText "src"),
      name ∉ ["vendor"] := by decide
  have hbare := @listFiles_vendorDisk none "/work/vendor/src" .root ["work", "vendor"] (by decide)
    (by decide)
  have hpath : (ofText vendorDisk (some "/work/vendor")).path (Path.ofText "src")
      = Path.ofText "/work/vendor/src" := by decide
  rw [hwalk, hpath, walk_filesystem, hbare]
  exact congrArg Except.ok (if_neg habove)

/-- **Below a relative base, too, the name of the base counts:** nothing is kept of what is kept
where base and directory lead. -/
theorem walk_ne_walk_bare_vendor :
    vendorDisk.root.HasNames
    ∧ (ofText vendorDisk (some "vendor")).path (Path.ofText "src") = Path.ofText "vendor/src"
    ∧ walk (ofText vendorDisk (some "vendor")).filesystem (Path.ofText "src") ["vendor"] [] = .ok []
    ∧ walk (ofText vendorDisk none).filesystem (Path.ofText "vendor/src") ["vendor"] []
        = .ok ["vendor/src/A.php"] := by
  have hbased := @listFiles_vendorDisk (some "vendor") "src" .relative ["vendor"] (by decide)
    (by decide)
  have hbare := @listFiles_vendorDisk none "vendor/src" .relative ["vendor"] (by decide) (by decide)
  refine ⟨hasNames_vendorDisk, by decide, ?_, ?_⟩
  · rw [walk_filesystem, hbased]
    decide +kernel
  · rw [walk_filesystem, hbare]
    decide +kernel

end LocalFiles
end ClassLineage
