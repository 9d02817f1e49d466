import ClassLineage.Proofs.Disk.Tree

/-!
# Disks of directories and files

On a disk without links the path of a place leads to that place and nowhere else, whatever
stands there.  So it is known exactly when directories are made and files are written, and what
stands where after that.

## Main definitions

* `Disk.pathOf` — the path of a place.
* `Disk.CanName`, `Disk.Takes` — the places that a path may name, and those short enough for the
  system.
* `Disk.Sound` — a disk of directories and files.

## Main results

* `Disk.follow_eq_ok_iff` — where names lead in a tidy tree.
* `Disk.Sound.find_eq_ok_iff`, `Disk.Sound.test_eq` — what is at the path of a place.
* `Disk.Sound.add` — a node that is added to a directory, and what stands where then.
* `Disk.Sound.makeDirectories`, `Disk.Sound.exists_makeDirectories` — **directories are made exactly
  where no file is on the way.**
* `Disk.Sound.writeFile_eq_ok_iff` — **a file is written exactly in a directory, where none stands.**
-/

namespace ClassLineage
namespace Disk

/-- The path of a place. -/
def pathOf (place : Place) : Path := ⟨.root, place⟩

/-- A path can name the place, however long its text is. -/
def CanName (place : Place) : Prop := ∀ name ∈ place, Path.IsName name ∧ '\x00' ∉ name.toList

instance : DecidablePred CanName := fun place =>
  inferInstanceAs (Decidable (∀ name ∈ place, Path.IsName name ∧ '\x00' ∉ name.toList))

/-- The system takes the path of a place, and every name of it. -/
structure Takes (place : Place) : Prop where
  /-- A path can name the place. -/
  canName : CanName place
  /-- No name is too long. -/
  name_le : ∀ name ∈ place, name.utf8ByteSize ≤ maxNameBytes
  /-- The path is not too long. -/
  text_lt : (pathOf place).toText.utf8ByteSize < maxPathBytes

instance : DecidablePred Takes := fun place =>
  decidable_of_iff (CanName place ∧ (∀ name ∈ place, name.utf8ByteSize ≤ maxNameBytes)
      ∧ (pathOf place).toText.utf8ByteSize < maxPathBytes)
    ⟨fun h => ⟨h.1, h.2.1, h.2.2⟩, fun h => ⟨h.canName, h.name_le, h.text_lt⟩⟩

/-- A disk of directories and files, at places that the system takes. -/
structure Sound (d : Disk) : Prop where
  /-- Its tree is tidy. -/
  tidy : d.root.IsTidy
  /-- Its root is a directory. -/
  root : d.root.kind = .directory
  /-- Whatever stands on it stands at a place that the system takes. -/
  takes : ∀ place, (d.root.kindAt? place).isSome → Takes place

variable {d d' : Disk} {p q : Place} {name : String} {bytes : List UInt8}

/-! ### Names and places -/

theorem CanName.isName (h : CanName p) : ∀ name ∈ p, Path.IsName name := fun name hname =>
  (h name hname).1

theorem CanName.of_append (h : CanName (p ++ q)) : CanName p := fun name hname =>
  h name (List.mem_append_left _ hname)

theorem CanName.isRead (h : CanName p) : (pathOf p).IsRead := fun name hname => (h name hname).1.1

theorem CanName.noNull (h : CanName p) : '\x00' ∉ (pathOf p).toText.toList := by
  rw [Path.mem_toText (by decide) (by decide)]
  rintro ⟨name, hname, hnull⟩
  exact (h name hname).2 hnull

@[simp] theorem parent_pathOf (p : Place) (name : String) :
    parent (pathOf (p ++ [name])) = pathOf p := by
  rw [parent, pathOf, pathOf, List.dropLast_concat]

/-- The text of the path of a place is not longer than that of one below it. -/
theorem utf8ByteSize_pathOf_le (p q : Place) :
    (pathOf p).toText.utf8ByteSize ≤ (pathOf (p ++ q)).toText.utf8ByteSize := by
  have htext : ∀ place : Place, (pathOf place).toText.utf8ByteSize
      = 1 + (String.intercalate "/" place).utf8ByteSize := by
    intro place
    rw [Path.toText, if_neg (by simp [pathOf]), String.utf8ByteSize_append]
    rfl
  rw [htext, htext]
  by_cases hp : p = []
  · rw [hp, String.intercalate_nil, String.utf8ByteSize_empty]
    omega
  · by_cases hq : q = []
    · exact Nat.le_of_eq (by rw [hq, List.append_nil])
    · rw [String.intercalate_append_of_ne_nil hp hq, String.utf8ByteSize_append,
        String.utf8ByteSize_append]
      omega

/-- What leads to a place that the system takes is such a place. -/
theorem Takes.of_append (h : Takes (p ++ q)) : Takes p where
  canName := h.canName.of_append
  name_le := fun name hname => h.name_le name (List.mem_append_left _ hname)
  text_lt := Nat.lt_of_le_of_lt (utf8ByteSize_pathOf_le p q) h.text_lt

theorem Takes.of_prefix (h : Takes p) (hq : q <+: p) : Takes q := by
  obtain ⟨rest, rfl⟩ := hq
  exact h.of_append

/-! ### Following names -/

section Follow

variable {root node : DiskNode} {links : Nat} {place : Place} {t : Target}

/-- **In a tidy tree names lead to their place** or, if nothing stands there, to the free name in
its directory. -/
theorem follow_eq_ok_iff (htidy : root.IsTidy) (hat : root.at? place = some node)
    (hq : ∀ name ∈ q, Path.IsName name) :
    follow root links place q = .ok t ↔ (∀ name ∈ q, name.utf8ByteSize ≤ maxNameBytes)
      ∧ (t = .present (place ++ q) ∧ (node.kindAt? q).isSome
        ∨ t = .absent (place ++ q) ∧ node.kindAt? q = none
          ∧ node.kindAt? q.dropLast = some .directory) := by
  induction q generalizing place node with
  | nil => simp [follow, eq_comm]
  | cons name q ih =>
    obtain ⟨⟨hplain, hup⟩, hrest⟩ := List.forall_mem_cons.mp hq
    have htidy' := htidy.at? hat
    cases htidy' with
    | file bytes =>
      rw [follow, hat]
      cases q <;> simp
    | @directory entries nodup inside =>
      rw [List.forall_mem_cons]
      by_cases hlen : maxNameBytes < name.utf8ByteSize
      · rw [follow, hat]
        simp only [hplain.ne_point, hup, hlen, if_true, if_false]
        simp [Nat.not_le.mpr hlen]
      · rw [DiskNode.kindAt?_directory_cons]
        cases hchild : Entries.find? name entries with
        | none =>
          rw [follow, hat]
          simp only [hplain.ne_point, hup, hlen, if_false, hchild]
          cases q with
          | nil => simp [Nat.not_lt.mp hlen, eq_comm]
          | cons second q => simp [DiskNode.kindAt?_directory_cons, hchild]
        | some child =>
          have hat' := DiskNode.at?_concat hat hchild
          rw [follow_name hat hplain.ne_point hup hlen
            (inside _ (Entries.mem_of_find? hchild)).ne_link hchild, ih hat' hrest,
            List.append_assoc, List.singleton_append, Option.bind_some]
          cases q with
          | nil => simp [Nat.not_lt.mp hlen]
          | cons second q =>
            rw [List.dropLast_cons_of_ne_nil (List.cons_ne_nil _ _),
              DiskNode.kindAt?_directory_cons, hchild, Option.bind_some]
            simp only [Nat.not_lt.mp hlen, true_and]

/-- Names that are not too long lead nowhere only because nothing is there. -/
theorem isAbsence_of_follow (htidy : root.IsTidy) (hat : root.at? place = some node)
    (hq : ∀ name ∈ q, Path.IsName name ∧ name.utf8ByteSize ≤ maxNameBytes) {e : SystemError}
    (h : follow root links place q = .error e) : e.isAbsence = true := by
  induction q generalizing place node with
  | nil => cases (follow.eq_def .. ▸ h : _)
  | cons name q ih =>
    obtain ⟨⟨⟨hplain, hup⟩, hlen⟩, hrest⟩ := List.forall_mem_cons.mp hq
    have htidy' := htidy.at? hat
    cases htidy' with
    | file bytes =>
      rw [follow, hat] at h
      rw [← Except.error.inj h]
      rfl
    | @directory entries nodup inside =>
      cases hchild : Entries.find? name entries with
      | none =>
        rw [follow, hat] at h
        simp only [hplain.ne_point, hup, Nat.not_lt.mpr hlen, if_false, hchild] at h
        split at h
        · cases h
        · rw [← Except.error.inj h]
          rfl
      | some child =>
        have hat' := DiskNode.at?_concat hat hchild
        rw [follow_name hat hplain.ne_point hup (Nat.not_lt.mpr hlen)
          (inside _ (Entries.mem_of_find? hchild)).ne_link hchild] at h
        exact ih hat' hrest h

end Follow

/-! ### What is at the path of a place -/

/-- A text that is too long leads nowhere. -/
theorem followText_of_long (hp : CanName p)
    (hlong : maxPathBytes ≤ (pathOf p).toText.utf8ByteSize) :
    d.followText (pathOf p).toText = .error .nameTooLong := by
  rw [followText, if_neg (by simpa using hp.noNull), if_neg (toText_ne_empty hp.isRead),
    if_pos hlong]

/-- The text of the path of a place leads where its names lead. -/
theorem Sound.followText_eq (h : d.Sound) (hp : CanName p)
    (htext : (pathOf p).toText.utf8ByteSize < maxPathBytes) :
    d.followText (pathOf p).toText = follow d.root maxLinks [] p := by
  have hstart : d.start (pathOf p) = [] := rfl
  rw [followText_toText hp.isRead ⟨hp.noNull, htext⟩, hstart]
  split
  · next hnil =>
    -- the slash of the root asks for a directory, and the root is one
    obtain ⟨entries, hentries⟩ := DiskNode.kind_eq_directory.mp h.root
    obtain rfl : p = [] := hnil
    have hroot : d.root.at? [] = some (.directory entries) := congrArg some hentries
    exact follow_point hroot
  · rfl

/-- The path of a place leads to it, if something stands there or its name is free in its
directory. -/
theorem Sound.followText_eq_ok_iff (h : d.Sound) (hp : CanName p) {t : Target} :
    d.followText (pathOf p).toText = .ok t ↔ Takes p
      ∧ (t = .present p ∧ (d.root.kindAt? p).isSome
        ∨ t = .absent p ∧ d.root.kindAt? p = none
          ∧ d.root.kindAt? p.dropLast = some .directory) := by
  by_cases htext : (pathOf p).toText.utf8ByteSize < maxPathBytes
  · have htakes : Takes p ↔ ∀ name ∈ p, name.utf8ByteSize ≤ maxNameBytes :=
      ⟨fun h => h.name_le, fun h => ⟨hp, h, htext⟩⟩
    rw [h.followText_eq hp htext, htakes]
    exact follow_eq_ok_iff h.tidy rfl hp.isName
  · constructor
    · intro ht
      rw [followText_of_long hp (Nat.not_lt.mp htext)] at ht
      cases ht
    · rintro ⟨htakes, -⟩
      exact absurd htakes.text_lt htext

/-- The path of a place leads to what stands there. -/
theorem Sound.find_eq_ok_iff (h : d.Sound) (hp : CanName p) {node : DiskNode} :
    d.find (pathOf p) = .ok node ↔ d.root.at? p = some node := by
  rw [Disk.find_eq_ok_iff]
  constructor
  · rintro ⟨place, ht, hat⟩
    obtain ⟨-, ⟨hplace, -⟩ | ⟨hplace, -⟩⟩ := (h.followText_eq_ok_iff hp).mp ht
    · rwa [← Target.present.inj hplace]
    · cases hplace
  · intro hat
    have hsome : (d.root.kindAt? p).isSome := by
      rw [DiskNode.kindAt?, hat]
      rfl
    exact ⟨p, (h.followText_eq_ok_iff hp).mpr ⟨h.takes p hsome, Or.inl ⟨rfl, hsome⟩⟩, hat⟩

/-- Whatever is asked of a place, the node there answers. -/
theorem Sound.test_eq (h : d.Sound) (hp : Takes p) (property : DiskNode → Bool) :
    d.test property (pathOf p) = .ok ((d.root.at? p).any property) := by
  cases hat : d.root.at? p with
  | some node =>
    rw [test, (h.find_eq_ok_iff hp.canName).mpr hat]
    rfl
  | none =>
    cases hfind : d.find (pathOf p) with
    | ok node =>
      rw [h.find_eq_ok_iff hp.canName, hat] at hfind
      cases hfind
    | error e =>
      have habsent : e.isAbsence = true := by
        rw [find, findText] at hfind
        cases ht : d.followText (pathOf p).toText with
        | error e' =>
          rw [ht] at hfind
          obtain rfl := Except.error.inj hfind
          rw [h.followText_eq hp.canName hp.text_lt] at ht
          exact isAbsence_of_follow h.tidy rfl
            (fun name hname => ⟨hp.canName.isName name hname, hp.name_le name hname⟩) ht
        | ok t =>
          rw [ht] at hfind
          obtain ⟨-, ⟨rfl, hsome⟩ | ⟨rfl, -⟩⟩ := (h.followText_eq_ok_iff hp.canName).mp ht
          · rw [DiskNode.kindAt?, hat] at hsome
            cases hsome
          · rw [← Except.error.inj hfind]
            rfl
      rw [test, hfind]
      exact if_pos habsent

/-- What is asked of a place is answered only if the path is not too long. -/
theorem text_lt_of_test (hp : CanName p) {property : DiskNode → Bool} {holds : Bool}
    (h : d.test property (pathOf p) = .ok holds) :
    (pathOf p).toText.utf8ByteSize < maxPathBytes := by
  by_contra hlong
  have hfind : d.find (pathOf p) = .error .nameTooLong := by
    rw [find, findText, followText_of_long hp (Nat.not_lt.mp hlong)]
    rfl
  rw [test, hfind] at h
  cases h

theorem Sound.isDirectory_eq (h : d.Sound) (hp : Takes p) :
    d.isDirectory (pathOf p) = .ok (d.root.kindAt? p = some .directory) := by
  rw [isDirectory, h.test_eq hp, DiskNode.kindAt?]
  cases d.root.at? p with
  | none => rfl
  | some node => cases node <;> rfl

/-! ### Adding to a directory -/

/-- **A node is added to a directory,** where none stands. -/
theorem Sound.add (h : d.Sound) (hp : Takes p) (hparent : d.root.kindAt? p.dropLast = some .directory)
    (hplace : d.root.kindAt? p ≠ some .directory) {new : DiskNode} (htidy : new.IsTidy)
    (hnew : new.places = []) :
    (d.setAt (some new) p).Sound ∧ ∀ q, (d.setAt (some new) p).root.kindAt? q
      = if q = p then some new.kind else d.root.kindAt? q := by
  have hne : p ≠ [] := by
    rintro rfl
    exact hplace (by rw [DiskNode.kindAt?_nil, h.root])
  have hkind : ∀ q, (d.setAt (some new) p).root.kindAt? q
      = if q = p then some new.kind else d.root.kindAt? q := fun q =>
    DiskNode.kindAt?_set hne hparent hplace hnew
  refine ⟨⟨?_, ?_, ?_⟩, hkind⟩
  · exact h.tidy.set fun added hadded => Option.some.inj hadded ▸ htidy
  · rw [← Option.some_inj, ← DiskNode.kindAt?_nil, hkind, if_neg hne.symm, DiskNode.kindAt?_nil,
      h.root]
  · intro q hq
    rw [hkind] at hq
    split at hq
    · next heq => exact heq ▸ hp
    · exact h.takes q hq

/-! ### Files -/

/-- **A file is written exactly in a directory,** where none stands. -/
theorem Sound.writeFile_eq_ok_iff (h : d.Sound) (hp : CanName p) :
    d.writeFile (pathOf p) bytes = .ok d' ↔ Takes p
      ∧ d.root.kindAt? p.dropLast = some .directory ∧ d.root.kindAt? p ≠ some .directory
      ∧ d' = d.setAt (some (.file bytes)) p := by
  rw [writeFile, Except.bind_eq_ok_iff]
  constructor
  · rintro ⟨t, ht, hd⟩
    obtain ⟨htakes, ⟨rfl, hsome⟩ | ⟨rfl, hnone, hparent⟩⟩ := (h.followText_eq_ok_iff hp).mp ht
    · dsimp only at hd
      split at hd
      · cases hd
      · next hnot =>
        have hplace : d.root.kindAt? p ≠ some .directory := by
          intro hdir
          obtain ⟨entries, hat⟩ := DiskNode.kindAt?_eq_directory.mp hdir
          exact hnot entries hat
        refine ⟨htakes, ?_, hplace, (Except.ok.inj hd).symm⟩
        -- where something stands, the place is one in a directory
        rcases List.eq_nil_or_concat p with rfl | ⟨init, name, rfl⟩
        · exact absurd (by rw [DiskNode.kindAt?_nil, h.root]) hplace
        · rw [List.concat_eq_append] at hsome ⊢
          rw [List.dropLast_concat]
          exact DiskNode.kindAt?_of_isSome hsome (List.cons_ne_nil _ _)
    · refine ⟨htakes, hparent, ?_, (Except.ok.inj hd).symm⟩
      rw [hnone]
      exact Option.some_ne_none _ |>.symm
  · rintro ⟨htakes, hparent, hplace, rfl⟩
    cases hkind : d.root.kindAt? p with
    | none =>
      exact ⟨_, (h.followText_eq_ok_iff hp).mpr ⟨htakes, Or.inr ⟨rfl, hkind, hparent⟩⟩, rfl⟩
    | some kind =>
      refine ⟨_, (h.followText_eq_ok_iff hp).mpr ⟨htakes, Or.inl ⟨rfl, hkind ▸ rfl⟩⟩, ?_⟩
      dsimp only
      split
      · next entries hat => exact absurd (DiskNode.kindAt?_eq_directory.mpr ⟨_, hat⟩) hplace
      · rfl

/-! ### Directories -/

/-- The place of a path is one in a directory. -/
theorem Sound.placeOf_eq_ok_iff (h : d.Sound) (hp : CanName (p ++ [name])) :
    d.placeOf (pathOf (p ++ [name])) = .ok q ↔ name.utf8ByteSize ≤ maxNameBytes
      ∧ d.root.kindAt? p = some .directory ∧ q = p ++ [name] := by
  have hlast : (pathOf (p ++ [name])).parts.getLast? = some name := List.getLast?_concat
  rw [placeOf, hlast]
  dsimp only
  rw [parent_pathOf, Except.bind_eq_ok_iff]
  constructor
  · rintro ⟨t, ht, hq⟩
    obtain ⟨-, ⟨rfl, -⟩ | ⟨rfl, -⟩⟩ := (h.followText_eq_ok_iff hp.of_append).mp ht
    · dsimp only at hq
      split at hq
      · next entries hat =>
        split at hq
        · cases hq
        · next hlen =>
          exact ⟨Nat.not_lt.mp hlen, DiskNode.kindAt?_eq_directory.mpr ⟨_, hat⟩,
            (Except.ok.inj hq).symm⟩
      · cases hq
    · cases hq
  · rintro ⟨hlen, hdir, rfl⟩
    obtain ⟨entries, hat⟩ := DiskNode.kindAt?_eq_directory.mp hdir
    have hsome : (d.root.kindAt? p).isSome := hdir ▸ rfl
    refine ⟨_, (h.followText_eq_ok_iff hp.of_append).mpr ⟨h.takes p hsome, Or.inl ⟨rfl, hsome⟩⟩, ?_⟩
    dsimp only
    rw [hat]
    exact if_neg (Nat.not_lt.mpr hlen)

/-- A directory is made exactly in a directory, where nothing stands; or it is there already. -/
theorem Sound.makeDirectory_eq_ok_iff (h : d.Sound) (hp : CanName (p ++ [name])) {isLast : Bool} :
    d.makeDirectory (pathOf (p ++ [name])) isLast = .ok d' ↔ Takes (p ++ [name])
      ∧ (d.root.kindAt? (p ++ [name]) = some .directory ∧ d' = d
        ∨ d.root.kindAt? p = some .directory ∧ d.root.kindAt? (p ++ [name]) = none
          ∧ d' = d.setAt (some (.directory [])) (p ++ [name])) := by
  rw [makeDirectory, Except.bind_eq_ok_iff]
  constructor
  · rintro ⟨holds, hdir, hd⟩
    cases holds with
    | true =>
      obtain ⟨node, hfind, hnode⟩ := test_eq_true_iff.mp hdir
      rw [h.find_eq_ok_iff hp] at hfind
      have hkind : d.root.kindAt? (p ++ [name]) = some .directory := by
        cases node with
        | directory entries => exact DiskNode.kindAt?_eq_directory.mpr ⟨_, hfind⟩
        | file bytes => cases hnode
        | link target => cases hnode
      exact ⟨h.takes _ (hkind ▸ rfl), Or.inl ⟨hkind, (Except.ok.inj hd).symm⟩⟩
    | false =>
      rw [if_neg Bool.false_ne_true, Except.bind_eq_ok_iff] at hd
      obtain ⟨place, hplace, hd⟩ := hd
      obtain ⟨hlen, hparent, rfl⟩ := (h.placeOf_eq_ok_iff hp).mp hplace
      have htakes : Takes (p ++ [name]) := by
        refine ⟨hp, fun n hn => ?_, text_lt_of_test hp hdir⟩
        rcases List.mem_append.mp hn with hn | hn
        · exact (h.takes p (hparent ▸ rfl)).name_le n hn
        · exact List.mem_singleton.mp hn ▸ hlen
      refine ⟨htakes, Or.inr ⟨hparent, ?_⟩⟩
      split at hd
      · next hnone => exact ⟨by rw [DiskNode.kindAt?, hnone]; rfl, (Except.ok.inj hd).symm⟩
      · cases hd
  · rintro ⟨htakes, ⟨hkind, rfl⟩ | ⟨hparent, hnone, rfl⟩⟩
    · exact ⟨_, h.isDirectory_eq htakes, by rw [if_pos (by simpa using hkind)]; rfl⟩
    · refine ⟨_, h.isDirectory_eq htakes, ?_⟩
      rw [if_neg (by simp [hnone]), Except.bind_eq_ok_iff]
      have hat : d.root.at? (p ++ [name]) = none := Option.map_eq_none_iff.mp hnone
      refine ⟨_, (h.placeOf_eq_ok_iff hp).mpr
        ⟨htakes.name_le _ (List.mem_append_right _ List.mem_cons_self), hparent, rfl⟩, ?_⟩
      rw [hat]
      rfl

/-- A directory that is made stands at its place, and all else stands where it was. -/
theorem Sound.makeDirectory (h : d.Sound) (hp : CanName (p ++ [name])) {isLast : Bool}
    (hd : d.makeDirectory (pathOf (p ++ [name])) isLast = .ok d') :
    d'.Sound ∧ Takes (p ++ [name]) ∧ (∀ bytes, d.root.kindAt? (p ++ [name]) ≠ some (.file bytes))
      ∧ ∀ q, d'.root.kindAt? q = if q = p ++ [name] then some .directory else d.root.kindAt? q := by
  obtain ⟨htakes, ⟨hkind, rfl⟩ | ⟨hparent, hnone, rfl⟩⟩ := (h.makeDirectory_eq_ok_iff hp).mp hd
  · refine ⟨h, htakes, by simp [hkind], fun q => ?_⟩
    split
    · next heq => rw [heq, hkind]
    · rfl
  · obtain ⟨hsound, hafter⟩ := h.add htakes (by rwa [List.dropLast_concat]) (by simp [hnone])
      DiskNode.isTidy_empty rfl
    exact ⟨hsound, htakes, by simp [hnone], hafter⟩

/-- A place is not on the way to the directory that it is in. -/
theorem not_concat_prefix (p : Place) (name : String) : ¬p ++ [name] <+: p := by
  intro hpre
  have hlength := hpre.length_le
  rw [List.length_append, List.length_singleton] at hlength
  omega

/-- The directories of the first names of a place are made, one after the other. -/
def makeFirst (p : Place) (flag : Nat → Bool) (n : Nat) (d : Disk) : Except SystemError Disk :=
  (List.range n).foldlM (fun d i => d.makeDirectory (pathOf (p.take (i + 1))) (flag i)) d

theorem makeFirst_succ (p : Place) (flag : Nat → Bool) (n : Nat) (d : Disk) :
    makeFirst p flag (n + 1) d = makeFirst p flag n d >>= fun made =>
      made.makeDirectory (pathOf (p.take (n + 1))) (flag n) := by
  rw [makeFirst, List.range_succ, List.foldlM_append]
  refine bind_congr fun made => ?_
  rw [List.foldlM_cons]
  exact bind_pure _

/-- The place of a disk at which a file stands that is in the way of directories. -/
def HasFileTo (d : Disk) (p : Place) : Prop :=
  ∃ q bytes, q <+: p ∧ d.root.kindAt? q = some (.file bytes)

/-- **Where directories are made,** no file was on the way, and there are directories then. -/
theorem Sound.makeFirst (h : d.Sound) (hp : CanName p) {flag : Nat → Bool} {n : Nat}
    (hn : n ≤ p.length) (hd : makeFirst p flag n d = .ok d') :
    d'.Sound ∧ Takes (p.take n) ∧ ¬d.HasFileTo (p.take n)
      ∧ ∀ q, d'.root.kindAt? q
        = if q <+: p.take n then some .directory else d.root.kindAt? q := by
  induction n generalizing d' with
  | zero =>
    obtain rfl := Except.ok.inj hd
    have hroot : d.root.kindAt? [] = some .directory := by rw [DiskNode.kindAt?_nil, h.root]
    refine ⟨h, h.takes [] rfl, ?_, fun q => ?_⟩
    · rintro ⟨q, bytes, hq, hfile⟩
      rw [List.take_zero, List.prefix_nil] at hq
      rw [hq, hroot] at hfile
      cases hfile
    · simp only [List.take_zero, List.prefix_nil]
      split
      · next hq => rw [hq, hroot]
      · rfl
  | succ n ih =>
    rw [makeFirst_succ, Except.bind_eq_ok_iff] at hd
    obtain ⟨made, hmade, hd⟩ := hd
    obtain ⟨hsound, -, hfile, hkind⟩ := ih (Nat.le_of_succ_le hn) hmade
    have htake : p.take (n + 1) = p.take n ++ [p[n]] := (List.take_append_getElem hn).symm
    have hcan : CanName (p.take n ++ [p[n]]) := by
      rw [← htake]
      exact fun name hname => hp name (List.mem_of_mem_take hname)
    rw [htake] at hd ⊢
    obtain ⟨hsound', htakes, hnot, hafter⟩ := hsound.makeDirectory hcan hd
    have hlonger := not_concat_prefix (p.take n) p[n]
    refine ⟨hsound', htakes, ?_, fun q => ?_⟩
    · rintro ⟨q, bytes, hq, hq'⟩
      rcases List.prefix_concat_iff.mp hq with rfl | hq
      · rw [hkind, if_neg hlonger] at hnot
        exact hnot bytes hq'
      · exact hfile ⟨q, bytes, hq, hq'⟩
    · rw [hafter, hkind]
      simp only [List.prefix_concat_iff]
      by_cases heq : q = p.take n ++ [p[n]]
      · simp only [heq, true_or, if_true]
      · simp only [heq, false_or, if_false]

/-- **Directories can be made where no file is on the way.** -/
theorem Sound.exists_makeFirst (h : d.Sound) (hp : Takes p) {flag : Nat → Bool} {n : Nat}
    (hn : n ≤ p.length) (hfile : ¬d.HasFileTo (p.take n)) :
    ∃ d', Disk.makeFirst p flag n d = .ok d' := by
  induction n with
  | zero => exact ⟨d, rfl⟩
  | succ n ih =>
    have htake : p.take (n + 1) = p.take n ++ [p[n]] := (List.take_append_getElem hn).symm
    have hbefore : ¬d.HasFileTo (p.take n) := fun ⟨q, bytes, hq, hq'⟩ =>
      hfile ⟨q, bytes, hq.trans (htake ▸ List.prefix_append _ _), hq'⟩
    obtain ⟨made, hmade⟩ := ih (Nat.le_of_succ_le hn) hbefore
    obtain ⟨hsound, -, -, hkind⟩ := h.makeFirst hp.canName (Nat.le_of_succ_le hn) hmade
    rw [makeFirst_succ, hmade, htake]
    have htakes : Takes (p.take n ++ [p[n]]) := htake ▸ hp.of_prefix (List.take_prefix _ _)
    have hlonger := not_concat_prefix (p.take n) p[n]
    have hsame := hkind (p.take n ++ [p[n]])
    rw [if_neg hlonger] at hsame
    -- a directory is there already, or nothing is
    cases hat : d.root.kindAt? (p.take n ++ [p[n]]) with
    | none =>
      exact ⟨_, (hsound.makeDirectory_eq_ok_iff htakes.canName).mpr ⟨htakes, Or.inr
        ⟨by rw [hkind, if_pos (List.prefix_refl _)], hsame.trans hat, rfl⟩⟩⟩
    | some kind =>
      cases kind with
      | directory =>
        exact ⟨_, (hsound.makeDirectory_eq_ok_iff htakes.canName).mpr
          ⟨htakes, Or.inl ⟨hsame.trans hat, rfl⟩⟩⟩
      | file bytes => exact absurd ⟨_, bytes, htake ▸ List.prefix_refl _, hat⟩ hfile
      | link target => exact absurd hat (h.tidy.kindAt?_ne_link _ _)

theorem makeDirectories_eq (p : Place) (d : Disk) :
    d.makeDirectories (pathOf p) = makeFirst p (fun i => i + 1 = p.length) p.length d := rfl

/-- **Where directories are made,** no file was on the way, and there are directories then. -/
theorem Sound.makeDirectories (h : d.Sound) (hp : CanName p)
    (hd : d.makeDirectories (pathOf p) = .ok d') :
    d'.Sound ∧ Takes p ∧ ¬d.HasFileTo p
      ∧ ∀ q, d'.root.kindAt? q = if q <+: p then some .directory else d.root.kindAt? q := by
  rw [makeDirectories_eq] at hd
  have hmade := h.makeFirst hp (Nat.le_refl _) hd
  rwa [List.take_length] at hmade

/-- **Directories can be made where no file is on the way.** -/
theorem Sound.exists_makeDirectories (h : d.Sound) (hp : Takes p) (hfile : ¬d.HasFileTo p) :
    ∃ d', d.makeDirectories (pathOf p) = .ok d' := by
  rw [makeDirectories_eq]
  apply h.exists_makeFirst hp (Nat.le_refl _)
  rwa [List.take_length]

end Disk
end ClassLineage
