import ClassLineage.Proofs.Disk.Tree

/-!
# Writing a file

Following a path ends at a directory, at a file in a directory or at a free name in one, whatever
links it passes; so a file that is written there is set at one place of the tree.  The path is then
followed as before, since no directory and no link has changed, and it leads to that file.

## Main definitions

* `DiskNode.InDirectory` — the place is that of a name in a directory.
* `DiskNode.Bears` — what a target says of a tree is so.
* `Disk.SetsFile` — two trees that differ by the file at a place.
* `Disk.Writes` — two disks that differ by the file that is written at a path.

## Main results

* `Disk.bears_follow` — **a path leads to a directory, to a file or to a free name.**
* `Disk.follow_set` — **it leads to the file that is set at its target.**
* `Disk.writes_writeFile` — **writing a file changes nothing but this file, which is then read
  back.**
-/

namespace ClassLineage

namespace DiskNode

variable {root node : DiskNode} {place : Place} {name : String} {entries : List (String × DiskNode)}

/-- The place is that of a name in a directory. -/
def InDirectory (root : DiskNode) (place : Place) : Prop :=
  place ≠ [] ∧ root.kindAt? place.dropLast = some .directory

/-- What a target says of a tree is so: a directory or a file is there, or the name is free. -/
def Bears (root : DiskNode) : Target → Prop
  | .present place => root.kindAt? place = some .directory
      ∨ (∃ bytes, root.kindAt? place = some (.file bytes)) ∧ root.InDirectory place
  | .absent place => root.kindAt? place = none ∧ root.InDirectory place

theorem kindAt?_of_at? (hat : root.at? place = some node) :
    root.kindAt? place = some node.kind := by
  rw [kindAt?, hat, Option.map_some]

/-- What stands at a name in a directory is its entry of that name. -/
theorem kindAt?_concat (hat : root.at? place = some (.directory entries)) (name : String) :
    root.kindAt? (place ++ [name]) = (Entries.find? name entries).map kind := by
  rw [kindAt?_append hat, kindAt?_directory_cons]
  cases Entries.find? name entries <;> rfl

/-- Where something stands at a name in a directory, an entry has that name. -/
theorem exists_entry (hat : root.at? place = some (.directory entries)) {k : NodeKind}
    (h : root.kindAt? (place ++ [name]) = some k) :
    ∃ child, Entries.find? name entries = some child ∧ child.kind = k := by
  rw [kindAt?_concat hat] at h
  exact Option.map_eq_some_iff.mp h

theorem kind_eq_link {target : String} : node.kind = .link target ↔ node = .link target := by
  cases node <;> simp [kind]

theorem inDirectory_concat (hplace : root.kindAt? place = some .directory) (name : String) :
    root.InDirectory (place ++ [name]) := by
  refine ⟨by simp, ?_⟩
  rwa [List.dropLast_concat]

/-- What stands at a name that is no link is borne by the tree. -/
theorem bears_concat (hat : root.at? place = some (.directory entries))
    (hchild : Entries.find? name entries = some node) (hlink : ∀ target, node ≠ .link target) :
    root.Bears (.present (place ++ [name])) := by
  have hkind := kindAt?_of_at? (at?_concat hat hchild)
  cases node with
  | file bytes => exact Or.inr ⟨⟨bytes, hkind⟩, inDirectory_concat (kindAt?_of_at? hat) name⟩
  | link target => exact absurd rfl (hlink target)
  | directory entries => exact Or.inl hkind

end DiskNode

namespace Disk

open DiskNode

/-! ### Where paths lead -/

section Follow

variable {root root' : DiskNode} {links : Nat} {place q : Place} {parts : List String} {t : Target}
  {bytes : List UInt8}

/-- **A path leads to a directory, to a file in one or to a free name in one,** if it has parts or
starts at such a place. -/
theorem bears_follow (h : follow root links place parts = .ok t)
    (hstart : parts = [] → root.Bears (.present place)) : root.Bears t := by
  fun_induction follow root links place parts with
  | case1 links place =>
    obtain rfl := Except.ok.inj h
    exact hstart rfl
  | case2 => exact absurd h (by simp)
  | case3 links place rest entries hat ih =>
    exact ih h fun _ => Or.inl (kindAt?_of_at? hat)
  | case4 links place rest entries hat _ ih =>
    exact ih h fun _ => Or.inl (kindAt?_eq_directory.mpr (at?_dropLast hat))
  | case5 => exact absurd h (by simp)
  | case6 links place part entries hat hpoint hup hlen hchild =>
    obtain rfl := Except.ok.inj h
    refine ⟨?_, inDirectory_concat (kindAt?_of_at? hat) part⟩
    rw [kindAt?_concat hat, hchild, Option.map_none]
  | case7 => exact absurd h (by simp)
  | case8 => exact absurd h (by simp)
  | case9 place part rest entries hat hpoint hup hlen target hchild links ih =>
    -- a target without parts leads to the directory that it starts from
    refine ih h fun _ => Or.inl ?_
    have hplace : root.kindAt? place = some .directory := kindAt?_of_at? hat
    split
    · exact kindAt?_of_prefix hplace List.nil_prefix
    · exact hplace
  | case10 links place part rest entries hat hpoint hup hlen child hlink hchild ih =>
    exact ih h fun _ => bears_concat hat hchild fun target ht => hlink target ht
  | case11 => exact absurd h (by simp)

/-- The tree `root'` is `root` with a file at a place. -/
def SetsFile (root root' : DiskNode) (place : Place) (bytes : List UInt8) : Prop :=
  ∀ other, root'.kindAt? other = if other = place then some (.file bytes) else root.kindAt? other

/-- Directories stay where they are when a file is set where none of them is. -/
theorem SetsFile.exists_directory (hset : SetsFile root root' q bytes)
    (hq : root.kindAt? q ≠ some .directory) {entries : List (String × DiskNode)}
    (hat : root.at? place = some (.directory entries)) :
    ∃ entries', root'.at? place = some (.directory entries') := by
  have hkind : root.kindAt? place = some .directory := kindAt?_of_at? hat
  have hne : place ≠ q := fun heq => hq (heq ▸ hkind)
  rw [← kindAt?_eq_directory, hset, if_neg hne, hkind]

/-- **A path leads to the file that is set at its target,** where neither a directory nor a link
was. -/
theorem follow_set (hset : SetsFile root root' q bytes) (hdir : root.kindAt? q ≠ some .directory)
    (hlink : ∀ target, root.kindAt? q ≠ some (.link target))
    (h : follow root links place parts = .ok t) (hq : t.place = q) :
    follow root' links place parts = .ok (.present q) := by
  fun_induction follow root links place parts with
  | case1 links place =>
    obtain rfl := Except.ok.inj h
    rw [follow, ← hq]
    rfl
  | case2 => exact absurd h (by simp)
  | case3 links place rest entries hat ih =>
    obtain ⟨entries', hat'⟩ := hset.exists_directory hdir hat
    rw [follow_point hat']
    exact ih h
  | case4 links place rest entries hat _ ih =>
    obtain ⟨entries', hat'⟩ := hset.exists_directory hdir hat
    rw [follow_up hat']
    exact ih h
  | case5 => exact absurd h (by simp)
  | case6 links place part entries hat hpoint hup hlen hchild =>
    -- the name was free, and the file has it now
    obtain ⟨entries', hat'⟩ := hset.exists_directory hdir hat
    obtain rfl := Except.ok.inj h
    obtain rfl : place ++ [part] = q := hq
    have hkind : root'.kindAt? (place ++ [part]) = some (.file bytes) := by
      rw [hset, if_pos rfl]
    obtain ⟨child, hchild', hkind⟩ := exists_entry hat' hkind
    rw [follow_name hat' hpoint hup hlen _ hchild', follow]
    rintro target rfl
    cases hkind
  | case7 => exact absurd h (by simp)
  | case8 => exact absurd h (by simp)
  | case9 place part rest entries hat hpoint hup hlen target hchild links ih =>
    -- the link is not where the file is, and so it is still there
    obtain ⟨entries', hat'⟩ := hset.exists_directory hdir hat
    have hkind : root.kindAt? (place ++ [part]) = some (.link target) :=
      kindAt?_of_at? (at?_concat hat hchild)
    have hne : place ++ [part] ≠ q := fun heq => hlink target (heq ▸ hkind)
    have hkind' : root'.kindAt? (place ++ [part]) = some (.link target) := by
      rw [hset, if_neg hne, hkind]
    obtain ⟨child, hchild', hkind'⟩ := exists_entry hat' hkind'
    obtain rfl := kind_eq_link.mp hkind'
    rw [follow_target hat' hpoint hup hlen hchild']
    exact ih h
  | case10 links place part rest entries hat hpoint hup hlen child hlink' hchild ih =>
    -- what had the name was no link, and what has it now is none
    obtain ⟨entries', hat'⟩ := hset.exists_directory hdir hat
    have hkind := kindAt?_of_at? (at?_concat hat hchild)
    have hkind' : root'.kindAt? (place ++ [part])
        = some (if place ++ [part] = q then .file bytes else child.kind) := by
      rw [hset, hkind]
      split <;> rfl
    obtain ⟨child', hchild', hkind'⟩ := exists_entry hat' hkind'
    rw [follow_name hat' hpoint hup hlen _ hchild']
    · exact ih h
    · rintro target rfl
      split at hkind'
      · cases hkind'
      · exact hlink' target (kind_eq_link.mp hkind'.symm)
  | case11 => exact absurd h (by simp)

end Follow

/-! ### What is written -/

variable {d d' : Disk} {p : Path} {bytes : List UInt8} {t : Target}

/-- The second disk is the first one with bytes in the file at a path: they are read there, and
everything else stands where it stood. -/
structure Writes (p : Path) (bytes : List UInt8) (d d' : Disk) : Prop where
  /-- The bytes are read where they are written. -/
  readBytes : d'.readBytes p = .ok bytes
  /-- Relative paths start from the same place. -/
  here : d'.here = d.here
  /-- The path has led to a place, and what stands there is all that has changed. -/
  setsFile : ∃ t, d.followText p.toText = .ok t ∧ SetsFile d.root d'.root t.place bytes

/-- A path leads to a directory, to a file or to a free name. -/
theorem bears_followText (hp : p.IsRead) (h : d.followText p.toText = .ok t) : d.root.Bears t := by
  refine bears_follow (follow_of_followText hp h) fun hparts => ?_
  split at hparts
  · cases hparts
  · next hne => exact absurd hparts hne

/-- A file that is set where a path leads, and where no directory is, is written there. -/
theorem writes_setAt (hp : p.IsRead) (h : d.followText p.toText = .ok t)
    (hdir : d.root.kindAt? t.place ≠ some .directory) :
    Writes p bytes d (d.setAt (some (.file bytes)) t.place) := by
  have hbears := bears_followText hp h
  have hin : d.root.InDirectory t.place := by
    cases t with
    | present place => exact (hbears.resolve_left hdir).2
    | absent place => exact hbears.2
  have hlink : ∀ target, d.root.kindAt? t.place ≠ some (.link target) := by
    intro target hkind
    cases t with
    | present place =>
      obtain ⟨⟨own, hfile⟩, -⟩ := hbears.resolve_left hdir
      exact absurd (hfile.symm.trans hkind) (by simp)
    | absent place => exact absurd (hbears.1.symm.trans hkind) (by simp)
  have hset : SetsFile d.root (d.setAt (some (.file bytes)) t.place).root t.place bytes :=
    fun other => kindAt?_set hin.1 hin.2 hdir rfl
  obtain ⟨htext, hfollow⟩ := (followText_eq_ok_iff hp).mp h
  have hagain := (followText_eq_ok_iff hp).mpr ⟨htext, follow_set hset hdir hlink hfollow rfl⟩
  refine ⟨readBytes_of_find (find_eq_ok_iff.mpr ⟨t.place, hagain, ?_⟩), rfl, t, h, hset⟩
  rw [← kindAt?_eq_file, hset, if_pos rfl]

/-- **Writing a file changes nothing but this file, which is then read back.**  Links on the way,
and a link at the path itself, are followed. -/
theorem writes_writeFile (hp : p.IsRead) (h : d.writeFile p bytes = .ok d') :
    Writes p bytes d d' := by
  rw [writeFile] at h
  obtain ⟨t, ht, h⟩ := Except.bind_eq_ok_iff.mp h
  cases t with
  | absent place =>
    obtain rfl := Except.ok.inj h
    have hfree : d.root.kindAt? place = none := (bears_followText hp ht).1
    exact writes_setAt hp ht (by simp [Target.place, hfree])
  | present place =>
    dsimp only at h
    split at h
    · exact absurd h (by simp)
    · next hne =>
      obtain rfl := Except.ok.inj h
      refine writes_setAt hp ht fun hkind => ?_
      obtain ⟨entries, hat⟩ := kindAt?_eq_directory.mp hkind
      exact hne entries hat

/-- Whether a file is written does not depend on its bytes. -/
theorem writeFile_eq_error {e : SystemError} (h : d.writeFile p bytes = .error e)
    (other : List UInt8) : d.writeFile p other = .error e := by
  unfold writeFile at h ⊢
  cases ht : d.followText p.toText with
  | error own => rwa [ht] at h
  | ok t =>
    rw [ht] at h
    cases t with
    | absent place => cases h
    | present place =>
      dsimp only [bind, Except.bind] at h ⊢
      split at h
      · exact h
      · cases h

end Disk
end ClassLineage
