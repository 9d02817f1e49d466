import ClassLineage.Disk.Edit
import ClassLineage.Proofs.Disk

/-!
# The names of a changed disk

What changes a disk keeps its names in order: a new node gets the last part of a path for
its name, and no part is the way up where nothing stands yet.  So what the theorems on listings
(in `ClassLineage.Proofs.Filesystem.Local` and `ClassLineage.Proofs.Search.Excludes`) ask of a disk,
`DiskNode.HasNames` of its root, holds of every disk that comes about from files by these changes:
it is `Disk.HasNames.root` of what is shown here.

## Main definitions

* `Disk.HasNames` — all names of a disk are names that a system allows.

## Main results

* `DiskNode.HasNames.set` — a node that is set keeps names in order.
* `Disk.follow_isName` — the names of the place to which a path leads.
* `Disk.HasNames.writeFile`, `Disk.HasNames.makeDirectories`, `Disk.HasNames.makeLink`,
  `Disk.HasNames.removeFile`, `Disk.HasNames.removeTree` — every change keeps them in order.
* `Disk.hasNames_ofFiles` — **so a disk that holds given files has names in order.**
-/

namespace ClassLineage

/-! ### Trees -/

namespace DiskNode

theorem hasNames_directory {entries : List (String × DiskNode)} :
    (directory entries).HasNames ↔ ∀ e ∈ entries, Path.IsName e.1 ∧ e.2.HasNames := by
  constructor
  · intro h e he
    refine ⟨h [e.1] (mem_placesOf.mpr ⟨e, he, Or.inl rfl⟩) _ List.mem_cons_self, ?_⟩
    intro q hq name hname
    exact h (e.1 :: q) (mem_placesOf.mpr ⟨e, he, Or.inr ⟨q, hq, rfl⟩⟩) name
      (List.mem_cons_of_mem _ hname)
  · intro h place hplace name hname
    obtain ⟨e, he, rfl | ⟨q, hq, rfl⟩⟩ := mem_placesOf.mp hplace
    · exact List.mem_singleton.mp hname ▸ (h e he).1
    · rcases List.mem_cons.mp hname with rfl | hname
      · exact (h e he).1
      · exact (h e he).2 q hq name hname

theorem HasNames.put {entries : List (String × DiskNode)} (h : (directory entries).HasNames)
    {name : String} (hname : Path.IsName name) {node : DiskNode} (hnode : node.HasNames) :
    (directory (Entries.put name node entries)).HasNames := by
  rw [hasNames_directory] at h ⊢
  intro e he
  rcases Entries.mem_of_mem_put he with rfl | he
  · exact ⟨hname, hnode⟩
  · exact h e he

/-- A node that is set at a place keeps names in order, if its own name and the names below
it are. -/
theorem HasNames.set {node : DiskNode} (h : node.HasNames) {new : Option DiskNode} {place : Place}
    (hnew : ∀ added, new = some added →
      added.HasNames ∧ ∀ name, place.getLast? = some name → Path.IsName name) :
    (node.set new place).HasNames := by
  fun_induction DiskNode.set new place node with
  | case1 node =>
    cases new with
    | none => exact h
    | some added => exact (hnew added rfl).1
  | case2 name entries added hadded =>
    exact h.put ((hnew added hadded).2 name rfl) (hnew added hadded).1
  | case3 name entries =>
    rw [hasNames_directory] at h ⊢
    intro e he
    exact h e (List.mem_filter.mp he).1
  | case4 name place entries hplace child hchild ih =>
    -- the name is one of the tree already; only the last one is new
    have hentry := hasNames_directory.mp h _ (Entries.mem_of_find? hchild)
    refine h.put hentry.1 (ih hentry.2 fun added hadded => ⟨(hnew added hadded).1, fun n hn => ?_⟩)
    obtain ⟨first, rest, rfl⟩ := List.exists_cons_of_ne_nil hplace
    exact (hnew added hadded).2 n (by rwa [List.getLast?_cons_cons])
  | case5 => exact h
  | case6 => exact h

end DiskNode

/-- The place that a path leads to, whether something is there or not. -/
def Target.place : Target → Place
  | present place => place
  | absent place => place

namespace Disk

/-- All names of a disk are names that a system allows. -/
structure HasNames (d : Disk) : Prop where
  /-- The names below the root are. -/
  root : d.root.HasNames
  /-- The names of the place that relative paths start from are. -/
  here : ∀ name ∈ d.here, Path.IsName name

/-! ### Where paths lead -/

/-- A part that the system reads says something, and holds no slash. -/
theorem of_mem_rawParts {text part : String} (h : part ∈ rawParts text) :
    part ≠ "" ∧ ∀ c ∈ part.toList, c ≠ '/' := by
  rcases List.mem_append.mp h with h | h
  · obtain ⟨hmem, hne⟩ := List.mem_filter.mp h
    exact ⟨by simpa using hne, fun c hc => by simpa using Text.all_of_mem_splitAll hmem c hc⟩
  · split at h
    · rw [List.mem_singleton.mp h]
      exact ⟨by decide, by simp⟩
    · exact absurd h List.not_mem_nil

theorem isName_of_ne {part : String} (hpart : part ≠ "" ∧ ∀ c ∈ part.toList, c ≠ '/')
    (hpoint : part ≠ ".") (hup : part ≠ "..") : Path.IsName part :=
  ⟨⟨by simp [Path.isPart, hpart.1, hpoint], hpart.2⟩, hup⟩

/-- The names of the place to which parts lead are names that a system allows. -/
theorem follow_isName {root : DiskNode} {links : Nat} {place : Place} {parts : List String}
    {t : Target} (hplace : ∀ name ∈ place, Path.IsName name)
    (hparts : ∀ part ∈ parts, part ≠ "" ∧ ∀ c ∈ part.toList, c ≠ '/')
    (h : follow root links place parts = .ok t) : ∀ name ∈ t.place, Path.IsName name := by
  have hsnoc : ∀ {place : Place} {part : String}, (∀ name ∈ place, Path.IsName name) →
      Path.IsName part → ∀ name ∈ place ++ [part], Path.IsName name := by
    intro place part hplace hpart name hname
    rcases List.mem_append.mp hname with hname | hname
    · exact hplace name hname
    · exact List.mem_singleton.mp hname ▸ hpart
  fun_induction follow root links place parts with
  | case1 links place =>
    obtain rfl := Except.ok.inj h
    exact hplace
  | case2 => exact absurd h (by simp)
  | case3 links place rest entries hat ih =>
    exact ih hplace (fun p hp => hparts p (List.mem_cons_of_mem _ hp)) h
  | case4 links place rest entries hat _ ih =>
    exact ih (fun n hn => hplace n (List.dropLast_subset _ hn))
      (fun p hp => hparts p (List.mem_cons_of_mem _ hp)) h
  | case5 => exact absurd h (by simp)
  | case6 links place part entries hat hpoint hup hlen hchild =>
    obtain rfl := Except.ok.inj h
    exact hsnoc hplace (isName_of_ne (hparts part List.mem_cons_self) hpoint hup)
  | case7 => exact absurd h (by simp)
  | case8 => exact absurd h (by simp)
  | case9 place part rest entries hat hpoint hup hlen target hchild links ih =>
    refine ih ?_ (fun p hp => ?_) h
    · split
      · intro name hname
        exact absurd hname List.not_mem_nil
      · exact hplace
    · rcases List.mem_append.mp hp with hp | hp
      · exact of_mem_rawParts hp
      · exact hparts p (List.mem_cons_of_mem _ hp)
  | case10 links place part rest entries hat hpoint hup hlen child hlink hchild ih =>
    exact ih (hsnoc hplace (isName_of_ne (hparts part List.mem_cons_self) hpoint hup))
      (fun p hp => hparts p (List.mem_cons_of_mem _ hp)) h
  | case11 => exact absurd h (by simp)

theorem HasNames.followText {d : Disk} (h : d.HasNames) {text : String} {t : Target}
    (ht : d.followText text = .ok t) : ∀ name ∈ t.place, Path.IsName name := by
  rw [Disk.followText] at ht
  split at ht
  · exact absurd ht (by simp)
  · split at ht
    · exact absurd ht (by simp)
    · split at ht
      · exact absurd ht (by simp)
      · refine follow_isName ?_ (fun _ => of_mem_rawParts) ht
        split
        · intro name hname
          exact absurd hname List.not_mem_nil
        · exact h.here

/-! ### Changes -/

theorem HasNames.setAt {d : Disk} (h : d.HasNames) {new : Option DiskNode} {place : Place}
    (hnew : ∀ added, new = some added →
      added.HasNames ∧ ∀ name, place.getLast? = some name → Path.IsName name) :
    (d.setAt new place).HasNames :=
  ⟨h.root.set hnew, h.here⟩

/-- A node is added to a disk under a name that a system allows. -/
theorem HasNames.add {d : Disk} (h : d.HasNames) {added : DiskNode} (hadded : added.places = [])
    {place : Place} (hplace : ∀ name, place.getLast? = some name → Path.IsName name) :
    (d.setAt (some added) place).HasNames := h.setAt fun node hnode => by
  obtain rfl := Option.some.inj hnode
  exact ⟨fun q hq => absurd (hadded ▸ hq) List.not_mem_nil, hplace⟩

/-- Writing a file keeps names in order. -/
theorem HasNames.writeFile {d d' : Disk} (h : d.HasNames) {p : Path} {bytes : List UInt8}
    (hd : d.writeFile p bytes = .ok d') : d'.HasNames := by
  have hset : ∀ place : Place, (∀ name ∈ place, Path.IsName name) →
      (d.setAt (some (.file bytes)) place).HasNames := fun place hplace =>
    h.add rfl fun n hn => hplace n (List.mem_of_getLast? hn)
  rw [Disk.writeFile] at hd
  obtain ⟨t, ht, hd⟩ := Except.bind_eq_ok_iff.mp hd
  have hplace := h.followText ht
  cases t with
  | absent place =>
    obtain rfl := Except.ok.inj hd
    exact hset place hplace
  | present place =>
    dsimp only at hd
    split at hd
    · exact absurd hd (by simp)
    · obtain rfl := Except.ok.inj hd
      exact hset place hplace

/-- The place of a path is its last part, below the directory that leads to it. -/
theorem placeOf_eq_ok {d : Disk} {p : Path} {place : Place} (h : d.placeOf p = .ok place) :
    ∃ name q entries, p.parts.getLast? = some name
      ∧ d.followText (parent p).toText = .ok (.present q)
      ∧ d.root.at? q = some (.directory entries) ∧ place = q ++ [name] := by
  rw [placeOf] at h
  cases hname : p.parts.getLast? with
  | none =>
    rw [hname] at h
    exact absurd h (by simp)
  | some name =>
    rw [hname] at h
    obtain ⟨t, ht, h⟩ := Except.bind_eq_ok_iff.mp h
    cases t with
    | absent q => exact absurd h (by simp)
    | present q =>
      dsimp only at h
      split at h
      · next entries hat =>
        split at h
        · exact absurd h (by simp)
        · exact ⟨name, q, entries, rfl, ht, hat, (Except.ok.inj h).symm⟩
      · exact absurd h (by simp)

/-- Above a directory, there is a directory. -/
theorem at?_dropLast {root : DiskNode} {place : Place} {entries : List (String × DiskNode)}
    (h : root.at? place = some (.directory entries)) :
    ∃ above, root.at? place.dropLast = some (.directory above) := by
  rcases List.eq_nil_or_concat place with rfl | ⟨init, name, rfl⟩
  · exact ⟨entries, h⟩
  · rw [List.concat_eq_append] at h ⊢
    rw [DiskNode.at?_append, Option.bind_eq_some_iff] at h
    obtain ⟨node, hnode, h⟩ := h
    rw [List.dropLast_concat, hnode]
    cases node with
    | file bytes => exact absurd h (by simp [DiskNode.at?])
    | link target => exact absurd h (by simp [DiskNode.at?])
    | directory above => exact ⟨above, rfl⟩

/-- The way up from a directory leads to a directory. -/
theorem find_up {d : Disk} {p : Path} (hp : p.IsRead) {init : List String}
    (hparts : p.parts = init ++ [".."]) {q : Place} {entries : List (String × DiskNode)}
    (hinit : d.followText (Path.mk p.lead init).toText = .ok (.present q))
    (hat : d.root.at? q = some (.directory entries))
    (htext : '\x00' ∉ p.toText.toList ∧ p.toText.utf8ByteSize < maxPathBytes) :
    ∃ above, d.find p = .ok (.directory above) := by
  obtain ⟨above, habove⟩ := at?_dropLast hat
  have hread : (Path.mk p.lead init).IsRead := fun part hpart =>
    hp part (hparts ▸ List.mem_append_left _ hpart)
  obtain ⟨left, hleft⟩ := follow_below hread hinit
  have hfollow : d.followText p.toText = .ok (.present q.dropLast) := by
    rw [followText_toText hp htext, hparts, if_neg (by simp)]
    refine (hleft [".."]).trans ?_
    rw [follow_up hat, follow]
  exact ⟨above, find_eq_ok_iff.mpr ⟨q.dropLast, hfollow, habove⟩⟩

/-- A node that is made where no directory is gets a name that a system allows. -/
theorem isName_of_placeOf {d : Disk} {p : Path} (hp : p.IsRead) {place : Place}
    (hplace : d.placeOf p = .ok place) (hdir : d.isDirectory p = .ok false) {name : String}
    (hname : place.getLast? = some name) : Path.IsName name := by
  obtain ⟨last, q, entries, hlast, hparent, hat, rfl⟩ := placeOf_eq_ok hplace
  obtain rfl : last = name := by simpa using hname
  refine ⟨hp last (List.mem_of_getLast? hlast), ?_⟩
  rintro rfl
  -- were it the way up, the path would lead to the directory above, and so to a directory
  obtain ⟨init, hparts⟩ := List.getLast?_eq_some_iff.mp hlast
  have hinit : parent p = ⟨p.lead, init⟩ := by rw [parent, hparts, List.dropLast_concat]
  rw [hinit] at hparent
  -- the text of the path is one that the system takes, since that of its parent is
  by_cases hnull : '\x00' ∈ p.toText.toList
  · obtain ⟨part, hpart, hmem⟩ := (Path.mem_toText (by decide) (by decide)).mp hnull
    rw [hparts] at hpart
    rcases List.mem_append.mp hpart with hpart | hpart
    · have hnull' : '\x00' ∈ (Path.mk p.lead init).toText.toList :=
        (Path.mem_toText (by decide) (by decide)).mpr ⟨part, hpart, hmem⟩
      rw [followText, if_pos (by simpa using hnull')] at hparent
      exact absurd hparent (by simp)
    · rw [List.mem_singleton.mp hpart] at hmem
      exact absurd hmem (by decide)
  · by_cases hlong : p.toText.utf8ByteSize < maxPathBytes
    · obtain ⟨above, hfind⟩ := find_up hp hparts hparent hat ⟨hnull, hlong⟩
      rw [isDirectory, test, hfind] at hdir
      exact absurd hdir (by simp [DiskNode.isDirectory])
    · have hfind : d.find p = .error .nameTooLong := by
        rw [find, findText, followText, if_neg (by simpa using hnull),
          if_neg (toText_ne_empty hp), if_pos (Nat.not_lt.mp hlong)]
        rfl
      rw [isDirectory, test, hfind] at hdir
      exact absurd hdir (by simp [SystemError.isAbsence])

/-- Making a directory keeps names in order. -/
theorem HasNames.makeDirectory {d d' : Disk} (h : d.HasNames) {p : Path} (hp : p.IsRead)
    {isLast : Bool} (hd : d.makeDirectory p isLast = .ok d') : d'.HasNames := by
  rw [Disk.makeDirectory] at hd
  obtain ⟨holds, hdir, hd⟩ := Except.bind_eq_ok_iff.mp hd
  cases holds with
  | true =>
    obtain rfl := Except.ok.inj hd
    exact h
  | false =>
    rw [if_neg Bool.false_ne_true] at hd
    obtain ⟨place, hplace, hd⟩ := Except.bind_eq_ok_iff.mp hd
    split at hd
    · obtain rfl := Except.ok.inj hd
      exact h.add rfl fun n hn => isName_of_placeOf hp hplace hdir hn
    · exact absurd hd (by simp)

/-- Making a link keeps names in order, unless it is to be made at the way up. -/
theorem HasNames.makeLink {d d' : Disk} (h : d.HasNames) {p : Path} (hp : p.IsRead)
    (hlast : p.parts.getLast? ≠ some "..") {target : String}
    (hd : d.makeLink target p = .ok d') : d'.HasNames := by
  rw [Disk.makeLink] at hd
  obtain ⟨place, hplace, hd⟩ := Except.bind_eq_ok_iff.mp hd
  obtain ⟨name, q, entries, hname, -, -, rfl⟩ := placeOf_eq_ok hplace
  split at hd
  · exact absurd hd (by simp)
  · obtain rfl := Except.ok.inj hd
    refine h.add rfl fun n hn => ?_
    obtain rfl : name = n := by simpa using hn
    exact ⟨hp name (List.mem_of_getLast? hname), fun hup => hlast (hup ▸ hname)⟩

/-- What is taken from a disk leaves names in order. -/
theorem HasNames.remove {d : Disk} (h : d.HasNames) (place : Place) :
    (d.setAt none place).HasNames :=
  h.setAt fun _ hadded => absurd hadded (by simp)

theorem HasNames.removeFile {d d' : Disk} (h : d.HasNames) {p : Path}
    (hd : d.removeFile p = .ok d') : d'.HasNames := by
  rw [Disk.removeFile] at hd
  obtain ⟨place, hplace, hd⟩ := Except.bind_eq_ok_iff.mp hd
  split at hd
  · exact absurd hd (by simp)
  · exact Except.ok.inj hd ▸ h.remove place
  · exact absurd hd (by simp)

theorem HasNames.removeTree {d d' : Disk} (h : d.HasNames) {p : Path}
    (hd : d.removeTree p = .ok d') : d'.HasNames := by
  rw [Disk.removeTree] at hd
  obtain ⟨place, hplace, hd⟩ := Except.bind_eq_ok_iff.mp hd
  split at hd
  · exact Except.ok.inj hd ▸ h.remove place
  all_goals exact absurd hd (by simp)

/-! ### Disks of given files -/

theorem HasNames.makeDirectories {d d' : Disk} (h : d.HasNames) {p : Path} (hp : p.IsRead)
    (hd : d.makeDirectories p = .ok d') : d'.HasNames :=
  Except.foldlM_keeps (fun _ hd _ _ _ hnext => hd.makeDirectory
    (fun part hpart => hp part (List.mem_of_mem_take hpart)) hnext) h hd

theorem HasNames.putFile {d d' : Disk} (h : d.HasNames) {p : Path} (hp : p.IsRead)
    {bytes : List UInt8} (hd : d.putFile p bytes = .ok d') : d'.HasNames := by
  rw [Disk.putFile] at hd
  obtain ⟨made, hmade, hd⟩ := Except.bind_eq_ok_iff.mp hd
  have hparent : (parent p).IsRead := fun part hpart => hp part (List.dropLast_subset _ hpart)
  exact (h.makeDirectories hparent hmade).writeFile hd

/-- **A disk that holds given files has names in order.** -/
theorem hasNames_ofFiles {files : List (String × List UInt8)} {d : Disk}
    (h : ofFiles files = .ok d) : d.HasNames := by
  have hempty : empty.HasNames := ⟨by decide, by decide⟩
  exact Except.foldlM_keeps
    (fun _ hd f _ _ hnext => hd.putFile (Path.isRead_ofText f.1) hnext) hempty h

end Disk
end ClassLineage
