import ClassLineage.Service.Archive
import ClassLineage.Proofs.Disk.Sound
import Mathlib.Data.List.Dedup
import Mathlib.Data.List.TakeWhile

/-!
# Unpacking archives

An entry is unpacked at a place below the directory that the archive goes to; directories on the
way there are made.  What stands at a place when all entries have been unpacked is what the last
entry that leaves anything there leaves.  All goes well exactly if the contents of all files can be
read, the system takes the places, and no file is in the way of another entry.

## Main definitions

* `NodeKind.leaves?` — what is left at a place when something is unpacked.
* `ArchiveEntry.parts`, `ArchiveEntry.kind` — where an entry goes, and what it is.
* `ArchiveEntry.Blocks` — an entry is a file where another one needs a directory.
* `Archive.leaves?` — what the entries leave at a place.
* `Archive.Fits` — entries that a disk has room for.
* `Archive.layOut` — a disk with entries on it, whose contents are known.
* `PackedEntry.plain`, `PackedEntry.damage?` — what of an entry comes on a disk, and what is wrong
  with it.
* `Archive.IsFirstDamage` — the entry at which unpacking breaks off.

## Main results

* `Disk.Sound.unpackAt`, `Disk.Sound.exists_unpackAt` — what unpacking needs, and what it leaves.
* `Archive.layOut_eq_ok`, `Archive.exists_layOut` — **when exactly entries come on a disk,** and
  what stands where after that.
* `Archive.unpack_intact`, `Archive.IsFirstDamage.unpack_eq` — unpacking is that as long as contents
  can be read, **and breaks off at the first one that cannot.**
* `Archive.Unpacked.topDirectory_eq` — which directory the files are in.
-/

namespace ClassLineage

open Disk (Takes CanName pathOf)

/-! ### Unpacking one node -/

/-- What is left at the place `q` when a node is unpacked at `p`: the node itself, and directories
on the way to it. -/
def NodeKind.leaves? (kind : NodeKind) (p q : Place) : Option NodeKind :=
  if q = p then some kind else if q <+: p then some .directory else none

namespace NodeKind

variable {kind k : NodeKind} {p q : Place}

theorem leaves?_self (kind : NodeKind) (p : Place) : kind.leaves? p p = some kind := if_pos rfl

theorem leaves?_of_prefix (h : q <+: p) (hne : q ≠ p) : kind.leaves? p q = some .directory := by
  rw [leaves?, if_neg hne, if_pos h]

theorem isSome_leaves?_iff : (kind.leaves? p q).isSome ↔ q <+: p := by
  rw [leaves?]
  split
  · next h => simp [h]
  · split
    · next hpre => simp [hpre]
    · next hpre => simp [hpre]

/-- What is left is the node at its place, or a directory on the way to it. -/
theorem leaves?_eq_some (h : kind.leaves? p q = some k) :
    q = p ∧ k = kind ∨ q <+: p ∧ q ≠ p ∧ k = .directory := by
  rw [leaves?] at h
  split at h
  · next heq => exact Or.inl ⟨heq, (Option.some.inj h).symm⟩
  · next hne =>
    split at h
    · next hpre => exact Or.inr ⟨hpre, hne, (Option.some.inj h).symm⟩
    · cases h

theorem leaves?_append (base : Place) : kind.leaves? (base ++ p) (base ++ q) = kind.leaves? p q := by
  simp only [leaves?, List.append_right_inj, List.prefix_append_right_inj]

/-- Two nodes agree on where directories are. -/
def Agrees (kind other : NodeKind) : Prop := kind = .directory ↔ other = .directory

theorem Agrees.trans {a b c : NodeKind} (hab : a.Agrees b) (hbc : b.Agrees c) : a.Agrees c :=
  Iff.trans hab hbc

theorem Agrees.symm {a b : NodeKind} (h : a.Agrees b) : b.Agrees a := Iff.symm h

end NodeKind

namespace Disk

variable {d d' : Disk} {p q : Place} {kind : NodeKind} {name : String}

/-- A disk with a directory at a path, made with all that lead to it unless something is there. -/
def ensure (p : Path) (d : Disk) : Except SystemError Disk :=
  match d.existsAt p with
  | .ok true => pure d
  | _ => d.makeDirectories p

/-- A disk with a directory, or a file with bytes, at a path; directories on the way to it are made
as well. -/
def unpackAt (p : Path) (isDirectory : Bool) (bytes : List UInt8) (d : Disk) :
    Except SystemError Disk := do
  let made ← d.ensure (parent p)
  if isDirectory then made.makeDirectory p true else made.writeFile p bytes

theorem Sound.existsAt_iff (h : d.Sound) (hp : CanName p) :
    d.existsAt (pathOf p) = .ok true ↔ (d.root.kindAt? p).isSome := by
  rw [existsAt, test_eq_true_iff, DiskNode.kindAt?, Option.isSome_map]
  simp only [h.find_eq_ok_iff hp, and_true, Option.isSome_iff_exists]

/-- No file is on the way to a directory. -/
theorem not_hasFileTo (h : d.root.kindAt? p = some .directory) : ¬d.HasFileTo p := by
  rintro ⟨q, bytes, hq, hfile⟩
  rw [DiskNode.kindAt?_of_prefix h hq] at hfile
  cases hfile

/-- **Where there is a directory then,** no file was on the way, and all else is as it was. -/
theorem Sound.ensure (h : d.Sound) (hp : CanName p) (hd : d.ensure (pathOf p) = .ok d') :
    d'.Sound ∧ (d'.root.kindAt? p = some .directory → ¬d.HasFileTo p
      ∧ ∀ q, d'.root.kindAt? q = if q <+: p then some .directory else d.root.kindAt? q) := by
  rw [Disk.ensure] at hd
  split at hd
  · obtain rfl := Except.ok.inj hd
    refine ⟨h, fun hdir => ⟨not_hasFileTo hdir, fun q => ?_⟩⟩
    split
    · next hpre => exact DiskNode.kindAt?_of_prefix hdir hpre
    · rfl
  · obtain ⟨hsound, -, hfile, hkind⟩ := h.makeDirectories hp hd
    exact ⟨hsound, fun _ => ⟨hfile, hkind⟩⟩

theorem Sound.exists_ensure (h : d.Sound) (hp : Takes p) (hfile : ¬d.HasFileTo p) :
    ∃ d', d.ensure (pathOf p) = .ok d' ∧ d'.root.kindAt? p = some .directory := by
  rw [Disk.ensure]
  split
  · next hexists =>
    refine ⟨d, rfl, ?_⟩
    rw [h.existsAt_iff hp.canName, Option.isSome_iff_exists] at hexists
    obtain ⟨kind, hkind⟩ := hexists
    cases kind with
    | directory => exact hkind
    | file bytes => exact absurd ⟨p, bytes, List.prefix_refl p, hkind⟩ hfile
    | link target => exact absurd hkind (h.tidy.kindAt?_ne_link _ _)
  · obtain ⟨d', hd⟩ := h.exists_makeDirectories hp hfile
    obtain ⟨-, -, -, hkind⟩ := h.makeDirectories hp.canName hd
    exact ⟨d', hd, by rw [hkind, if_pos (List.prefix_refl p)]⟩

/-- What is to be unpacked at a place: a directory, or a file with its bytes. -/
def unpackedKind (isDirectory : Bool) (bytes : List UInt8) : NodeKind :=
  if isDirectory then .directory else .file bytes

/-- A node can be unpacked at a place: the system takes it, and what is left there agrees with what
stands there already. -/
structure Admits (d : Disk) (p : Place) (kind : NodeKind) : Prop where
  /-- The system takes the place. -/
  takes : Takes p
  /-- What is left agrees with what stands there. -/
  agrees : ∀ q k other, kind.leaves? p q = some k → d.root.kindAt? q = some other → k.Agrees other

/-- The last step of unpacking, in a directory that is there. -/
theorem Sound.place (h : d.Sound) (hp : CanName (p ++ [name])) {isDirectory : Bool}
    {bytes : List UInt8}
    (hd : (if isDirectory then d.makeDirectory (pathOf (p ++ [name])) true
      else d.writeFile (pathOf (p ++ [name])) bytes) = .ok d') :
    d'.Sound ∧ Takes (p ++ [name]) ∧ d.root.kindAt? p = some .directory
      ∧ (∀ other, d.root.kindAt? (p ++ [name]) = some other →
        (unpackedKind isDirectory bytes).Agrees other)
      ∧ ∀ q, d'.root.kindAt? q
        = if q = p ++ [name] then some (unpackedKind isDirectory bytes) else d.root.kindAt? q := by
  cases isDirectory with
  | true =>
    rw [if_pos rfl] at hd
    obtain ⟨hsound, htakes, hnot, hkind⟩ := h.makeDirectory hp hd
    refine ⟨hsound, htakes, ?_, ?_, hkind⟩
    · obtain ⟨-, ⟨hdir, -⟩ | ⟨hparent, -⟩⟩ := (h.makeDirectory_eq_ok_iff hp).mp hd
      · exact DiskNode.kindAt?_of_prefix hdir (List.prefix_append _ _)
      · exact hparent
    · intro other hother
      cases other with
      | directory => exact Iff.rfl
      | file own => exact absurd hother (hnot own)
      | link target => exact absurd hother (h.tidy.kindAt?_ne_link _ _)
  | false =>
    rw [if_neg Bool.false_ne_true] at hd
    obtain ⟨htakes, hparent, hplace, rfl⟩ := (h.writeFile_eq_ok_iff hp).mp hd
    obtain ⟨hsound, hkind⟩ := h.add htakes hparent hplace (.file bytes) rfl
    rw [List.dropLast_concat] at hparent
    refine ⟨hsound, htakes, hparent, ?_, hkind⟩
    rintro other hother
    have hfile : unpackedKind false bytes ≠ .directory := by simp [unpackedKind]
    exact iff_of_false hfile fun hdir => hplace (hdir ▸ hother)

/-- **What unpacking needs, and what it leaves.** -/
theorem Sound.unpackAt (h : d.Sound) (hp : CanName p) (hne : p ≠ []) {isDirectory : Bool}
    {bytes : List UInt8} (hd : d.unpackAt (pathOf p) isDirectory bytes = .ok d') :
    d'.Sound ∧ d.Admits p (unpackedKind isDirectory bytes)
      ∧ ∀ q, d'.root.kindAt? q
        = ((unpackedKind isDirectory bytes).leaves? p q).or (d.root.kindAt? q) := by
  obtain ⟨init, name, rfl⟩ := (List.eq_nil_or_concat p).resolve_left hne
  rw [List.concat_eq_append] at hp hd ⊢
  rw [Disk.unpackAt, parent_pathOf, Except.bind_eq_ok_iff] at hd
  obtain ⟨made, hmade, hd⟩ := hd
  obtain ⟨hsound, hensure⟩ := h.ensure hp.of_append hmade
  obtain ⟨hsound', htakes, hdir, hagrees, hplace⟩ := hsound.place hp hd
  obtain ⟨hfile, hkind⟩ := hensure hdir
  have hlonger : ¬init ++ [name] <+: init := not_concat_prefix init name
  refine ⟨hsound', ⟨htakes, fun q k other hk hother => ?_⟩, fun q => ?_⟩
  · rcases NodeKind.leaves?_eq_some hk with ⟨rfl, rfl⟩ | ⟨hpre, hq, rfl⟩
    · exact hagrees other (by rw [hkind, if_neg hlonger, hother])
    · -- on the way there was no file, and so there were directories only
      have hinit : q <+: init := (List.prefix_concat_iff.mp hpre).resolve_left hq
      cases other with
      | directory => exact Iff.rfl
      | file own => exact absurd ⟨q, own, hinit, hother⟩ hfile
      | link target => exact absurd hother (h.tidy.kindAt?_ne_link _ _)
  · rw [hplace, hkind, NodeKind.leaves?]
    by_cases hq : q = init ++ [name]
    · rw [if_pos hq, if_pos hq, Option.some_or]
    · simp only [hq, List.prefix_concat_iff, if_false, false_or]
      split <;> simp

/-- **What needs no more can be unpacked.** -/
theorem Sound.exists_unpackAt (h : d.Sound) (hne : p ≠ []) {isDirectory : Bool}
    {bytes : List UInt8} (hadmits : d.Admits p (unpackedKind isDirectory bytes)) :
    ∃ d', d.unpackAt (pathOf p) isDirectory bytes = .ok d' := by
  obtain ⟨init, name, rfl⟩ := (List.eq_nil_or_concat p).resolve_left hne
  rw [List.concat_eq_append] at hadmits ⊢
  obtain ⟨htakes, hagrees⟩ := hadmits
  have hlonger : ¬init ++ [name] <+: init := not_concat_prefix init name
  have hfile : ¬d.HasFileTo init := by
    rintro ⟨q, own, hq, hown⟩
    have hleaves := @NodeKind.leaves?_of_prefix (unpackedKind isDirectory bytes) _ _
      (hq.trans (List.prefix_append _ [name])) fun heq => hlonger (heq ▸ hq)
    exact absurd ((hagrees q _ _ hleaves hown).mp rfl) (by simp)
  obtain ⟨made, hmade, hdir⟩ := h.exists_ensure htakes.of_append hfile
  obtain ⟨hsound, hensure⟩ := h.ensure htakes.of_append.canName hmade
  have hsame := (hensure hdir).2 (init ++ [name])
  rw [if_neg hlonger] at hsame
  have hthere : ∀ other, made.root.kindAt? (init ++ [name]) = some other →
      (unpackedKind isDirectory bytes).Agrees other := fun other hother =>
    hagrees _ _ other (NodeKind.leaves?_self _ _) (hsame ▸ hother)
  rw [Disk.unpackAt, parent_pathOf]
  cases isDirectory with
  | true =>
    have hmake : ∃ d', made.makeDirectory (pathOf (init ++ [name])) true = .ok d' := by
      simp only [hsound.makeDirectory_eq_ok_iff htakes.canName]
      cases hat : made.root.kindAt? (init ++ [name]) with
      | none => exact ⟨_, htakes, Or.inr ⟨hdir, rfl, rfl⟩⟩
      | some other => exact ⟨_, htakes, Or.inl ⟨congrArg some ((hthere other hat).mp rfl), rfl⟩⟩
    obtain ⟨d', hd⟩ := hmake
    exact ⟨d', Except.bind_eq_ok_iff.mpr ⟨made, hmade, hd⟩⟩
  | false =>
    refine ⟨_, Except.bind_eq_ok_iff.mpr ⟨made, hmade,
      (hsound.writeFile_eq_ok_iff htakes.canName).mpr ⟨htakes, ?_, ?_, rfl⟩⟩⟩
    · rwa [List.dropLast_concat]
    · intro hat
      exact absurd ((hthere _ hat).mpr rfl) (by simp [unpackedKind])

end Disk

/-! ### Entries -/

namespace ArchiveEntry

/-- The names that lead to what is unpacked from the entry. -/
def parts (e : ArchiveEntry) : Place :=
  (Text.splitAll (· = '/') (Archive.cutName e.name)).filter Archive.isDescent

/-- The entry is a directory. -/
def isDirectory (e : ArchiveEntry) : Bool := Archive.isDirectoryName (Archive.cutName e.name)

/-- What the entry is: a directory, or a file with its bytes. -/
def kind (e : ArchiveEntry) : NodeKind := Disk.unpackedKind e.isDirectory e.bytes

/-- What the entry leaves at a place below the directory that the archive goes to. -/
def leaves? (e : ArchiveEntry) (q : Place) : Option NodeKind := e.kind.leaves? e.parts q

/-- The entry is a file where another one needs a directory. -/
def Blocks (e other : ArchiveEntry) : Prop :=
  e.isDirectory = false ∧ other.leaves? e.parts = some .directory

instance (e other : ArchiveEntry) : Decidable (e.Blocks other) :=
  inferInstanceAs (Decidable (_ ∧ _))

variable {e other : ArchiveEntry} {q : Place} {k : NodeKind}

theorem kind_eq_directory : e.kind = .directory ↔ e.isDirectory = true := by
  rw [kind, Disk.unpackedKind]
  split
  · next h => simp [h]
  · next h => simp [h]

theorem kind_eq_file {bytes : List UInt8} :
    e.kind = .file bytes ↔ e.isDirectory = false ∧ e.bytes = bytes := by
  rw [kind, Disk.unpackedKind]
  split
  · next h => simp [h]
  · next h => simp [h]

/-- The names that lead to an entry are such as a path can hold. -/
theorem canName_parts (e : ArchiveEntry) : CanName e.parts := by
  intro name hname
  rw [parts, List.mem_filter] at hname
  obtain ⟨hmem, hdescent⟩ := hname
  simp only [Archive.isDescent, Bool.and_eq_true, bne_iff_ne] at hdescent
  obtain ⟨⟨hempty, hpoint⟩, hup⟩ := hdescent
  have hchars := Text.all_of_mem_splitAll hmem
  refine ⟨⟨⟨by simp [Path.isPart, hempty, hpoint], fun c hc => by simpa using hchars c hc⟩, hup⟩, ?_⟩
  intro hnull
  have hcut := Text.subset_of_mem_splitAll hmem hnull
  rw [Archive.cutName, String.toList_ofList] at hcut
  simpa using List.mem_takeWhile_imp hcut

/-- Where an entry needs a directory, another one that does not block it leaves one. -/
theorem eq_directory_of_not_blocks (h : ¬other.Blocks e) (hk : e.leaves? q = some .directory)
    (hother : other.leaves? q = some k) : k = .directory := by
  rcases NodeKind.leaves?_eq_some hother with ⟨hq, hkind⟩ | ⟨-, -, hdir⟩
  · by_contra hfile
    rw [hkind, kind_eq_directory] at hfile
    rw [hq] at hk
    exact h ⟨by simpa using hfile, hk⟩
  · exact hdir

/-- Entries that do not block each other agree on where directories are. -/
theorem agrees_of_not_blocks (h : ¬e.Blocks other) (h' : ¬other.Blocks e) {k' : NodeKind}
    (hk : e.leaves? q = some k) (hk' : other.leaves? q = some k') : k.Agrees k' :=
  ⟨fun hdir => eq_directory_of_not_blocks h' (hdir ▸ hk) hk',
    fun hdir => eq_directory_of_not_blocks h (hdir ▸ hk') hk⟩

/-- An entry that blocks another does not agree with it. -/
theorem Blocks.not_agrees (h : e.Blocks other) :
    ∃ q k k', e.leaves? q = some k ∧ other.leaves? q = some k' ∧ ¬k.Agrees k' := by
  refine ⟨e.parts, e.kind, .directory, NodeKind.leaves?_self _ _, h.2, fun hagrees => ?_⟩
  have hfile := h.1
  rw [kind_eq_directory.mp (hagrees.mpr rfl)] at hfile
  cases hfile

theorem not_blocks_self (e : ArchiveEntry) : ¬e.Blocks e := by
  intro h
  obtain ⟨q, k, k', hk, hk', hnot⟩ := h.not_agrees
  rw [hk, Option.some.injEq] at hk'
  exact hnot (hk' ▸ Iff.rfl)

end ArchiveEntry

/-! ### Archives -/

namespace Archive

variable {base q : Place} {d d' : Disk} {e : ArchiveEntry} {entries : List ArchiveEntry}
  {k : NodeKind}

/-- What the entries leave at a place: what the last one leaves that leaves anything there. -/
def leaves? (entries : List ArchiveEntry) (q : Place) : Option NodeKind :=
  entries.reverse.findSome? (·.leaves? q)

/-- No entry is in the way of another one, and the system takes the places of all. -/
structure Fits (base : Place) (entries : List ArchiveEntry) : Prop where
  /-- The system takes the places. -/
  takes : ∀ e ∈ entries, Takes (base ++ e.parts)
  /-- No entry is in the way. -/
  unblocked : ∀ e ∈ entries, ∀ other ∈ entries, ¬e.Blocks other

@[simp] theorem leaves?_nil (q : Place) : leaves? [] q = none := rfl

theorem leaves?_concat (entries : List ArchiveEntry) (e : ArchiveEntry) (q : Place) :
    leaves? (entries ++ [e]) q = (e.leaves? q).or (leaves? entries q) := by
  rw [leaves?, List.reverse_append, List.reverse_singleton, List.singleton_append,
    List.findSome?_cons]
  cases e.leaves? q <;> rfl

theorem exists_of_leaves? (h : leaves? entries q = some k) :
    ∃ e ∈ entries, e.leaves? q = some k := by
  obtain ⟨e, he, hk⟩ := List.exists_of_findSome?_eq_some h
  exact ⟨e, List.mem_reverse.mp he, hk⟩

theorem isSome_leaves?_iff :
    (leaves? entries q).isSome ↔ ∃ e ∈ entries, q <+: e.parts := by
  rw [leaves?, List.findSome?_isSome_iff]
  simp only [List.mem_reverse, ArchiveEntry.leaves?, NodeKind.isSome_leaves?_iff]

/-- What the entries leave where one of them leaves something agrees with it, if none is in the way
of another. -/
theorem Fits.agrees (h : Fits base entries) (he : e ∈ entries) (hk : e.leaves? q = some k) :
    ∃ k', leaves? entries q = some k' ∧ k.Agrees k' := by
  have hsome : (leaves? entries q).isSome := by
    rw [leaves?, List.findSome?_isSome_iff]
    exact ⟨e, List.mem_reverse.mpr he, hk ▸ rfl⟩
  obtain ⟨k', hk'⟩ := Option.isSome_iff_exists.mp hsome
  obtain ⟨other, hother, hleaves⟩ := exists_of_leaves? hk'
  exact ⟨k', hk', ArchiveEntry.agrees_of_not_blocks (h.unblocked e he other hother)
    (h.unblocked other hother e he) hk hleaves⟩

theorem Fits.of_concat (h : Fits base (entries ++ [e])) : Fits base entries where
  takes := fun other hother => h.takes other (List.mem_append_left _ hother)
  unblocked := fun first hfirst other hother =>
    h.unblocked first (List.mem_append_left _ hfirst) other (List.mem_append_left _ hother)

/-- A disk of directories, on which the entries have been unpacked below a place. -/
structure Unpacked (base : Place) (entries : List ArchiveEntry) (d : Disk) : Prop where
  /-- It is a disk of directories and files. -/
  sound : d.Sound
  /-- What the entries leave stands at the place, or below it. -/
  inside : ∀ q, d.root.kindAt? (base ++ q) = leaves? entries q
  /-- What stands elsewhere are directories. -/
  outside : ∀ q, ¬base <+: q → ∀ k, d.root.kindAt? q = some k → k = .directory

/-- A disk with an entry below a place. -/
def layEntry (base : Place) (d : Disk) (e : ArchiveEntry) : Except SystemError Disk :=
  d.unpackAt (pathOf (base ++ e.parts)) e.isDirectory e.bytes

/-- A disk with entries below a place, one after the other. -/
def layOut (base : Place) (entries : List ArchiveEntry) (d : Disk) : Except SystemError Disk :=
  entries.foldlM (layEntry base) d

theorem layOut_concat (base : Place) (entries : List ArchiveEntry) (e : ArchiveEntry) (d : Disk) :
    layOut base (entries ++ [e]) d
      = layOut base entries d >>= fun laid => layEntry base laid e := by
  rw [layOut, List.foldlM_append]
  refine bind_congr fun laid => ?_
  rw [List.foldlM_cons]
  exact bind_pure _

/-- An entry can be unpacked exactly if it fits to those that have been. -/
theorem Unpacked.admits_iff (h : Unpacked base entries d) (hfits : Fits base entries) :
    d.Admits (base ++ e.parts) e.kind ↔ Fits base (entries ++ [e]) := by
  constructor
  · rintro ⟨htakes, hagrees⟩
    have hnew : ∀ other ∈ entries, ∀ q k k', other.leaves? q = some k → e.leaves? q = some k' →
        k.Agrees k' := by
      intro other hother q k k' hk hk'
      obtain ⟨left, hleft, hagree⟩ := hfits.agrees hother hk
      have hthere := hagrees (base ++ q) k' left (by rwa [NodeKind.leaves?_append])
        (by rw [h.inside, hleft])
      exact hagree.trans hthere.symm
    refine ⟨List.forall_mem_append.mpr ⟨hfits.takes, by simpa using htakes⟩, ?_⟩
    intro first hfirst other hother hblocks
    obtain ⟨q, k, k', hk, hk', hnot⟩ := hblocks.not_agrees
    rcases List.mem_append.mp hfirst with hfirst' | hfirst'
    · rcases List.mem_append.mp hother with hother' | hother'
      · exact hfits.unblocked first hfirst' other hother' hblocks
      · rw [List.mem_singleton.mp hother'] at hk'
        exact hnot (hnew first hfirst' q k k' hk hk')
    · rw [List.mem_singleton.mp hfirst'] at hk hblocks
      rcases List.mem_append.mp hother with hother' | hother'
      · exact hnot (hnew other hother' q k' k hk' hk).symm
      · rw [List.mem_singleton.mp hother'] at hblocks
        exact e.not_blocks_self hblocks
  · intro hall
    have he : e ∈ entries ++ [e] := List.mem_append_right _ List.mem_cons_self
    refine ⟨hall.takes e he, fun q k other hk hother => ?_⟩
    by_cases hq : base <+: q
    · obtain ⟨rest, rfl⟩ := hq
      rw [NodeKind.leaves?_append] at hk
      rw [h.inside] at hother
      obtain ⟨f, hf, hleft⟩ := exists_of_leaves? hother
      have hf' := List.mem_append_left [e] hf
      exact ArchiveEntry.agrees_of_not_blocks (hall.unblocked e he f hf')
        (hall.unblocked f hf' e he) hk hleft
    · -- above the place there are directories only, and these are what is needed there
      rw [h.outside q hq other hother]
      rcases NodeKind.leaves?_eq_some hk with ⟨rfl, -⟩ | ⟨-, -, rfl⟩
      · exact absurd (List.prefix_append _ _) hq
      · exact Iff.rfl

/-- What one more entry leaves. -/
theorem Unpacked.concat (h : Unpacked base entries d) (hsound : d'.Sound)
    (hkind : ∀ q, d'.root.kindAt? q
      = (e.kind.leaves? (base ++ e.parts) q).or (d.root.kindAt? q)) :
    Unpacked base (entries ++ [e]) d' where
  sound := hsound
  inside := fun q => by
    rw [hkind, NodeKind.leaves?_append, h.inside, leaves?_concat]
    rfl
  outside := fun q hq k hk => by
    rw [hkind, Option.or_eq_some_iff] at hk
    rcases hk with hk | ⟨-, hk⟩
    · rcases NodeKind.leaves?_eq_some hk with ⟨rfl, -⟩ | ⟨-, -, rfl⟩
      · exact absurd (List.prefix_append _ _) hq
      · rfl
    · exact h.outside q hq k hk

section Run

variable (hbase : CanName base) (hne : base ≠ []) (hfree : Unpacked base [] d)
include hbase hne hfree

/-- **What has come on a disk fits,** and stands where its entries tell. -/
theorem layOut_eq_ok (hd : layOut base entries d = .ok d') :
    Fits base entries ∧ Unpacked base entries d' := by
  induction entries using List.reverseRecOn generalizing d' with
  | nil =>
    obtain rfl := Except.ok.inj hd
    exact ⟨⟨by simp, by simp⟩, hfree⟩
  | append_singleton entries e ih =>
    rw [layOut_concat, Except.bind_eq_ok_iff] at hd
    obtain ⟨laid, hlaid, hd⟩ := hd
    obtain ⟨hfits, hinvariant⟩ := ih hlaid
    have hcan : CanName (base ++ e.parts) := List.forall_mem_append.mpr ⟨hbase, e.canName_parts⟩
    obtain ⟨hsound, hadmits, hkind⟩ :=
      hinvariant.sound.unpackAt hcan (List.append_ne_nil_of_left_ne_nil hne _) hd
    exact ⟨(hinvariant.admits_iff hfits).mp hadmits, hinvariant.concat hsound hkind⟩

/-- **What fits comes on a disk.** -/
theorem exists_layOut (hfits : Fits base entries) : ∃ d', layOut base entries d = .ok d' := by
  induction entries using List.reverseRecOn with
  | nil => exact ⟨d, rfl⟩
  | append_singleton entries e ih =>
    obtain ⟨laid, hlaid⟩ := ih hfits.of_concat
    obtain ⟨-, hinvariant⟩ := layOut_eq_ok hbase hne hfree hlaid
    have hadmits := (hinvariant.admits_iff hfits.of_concat).mpr hfits
    obtain ⟨d', hd⟩ := @Disk.Sound.exists_unpackAt _ (base ++ e.parts) hinvariant.sound
      (List.append_ne_nil_of_left_ne_nil hne _) e.isDirectory e.bytes hadmits
    refine ⟨d', ?_⟩
    rw [layOut_concat, Except.bind_eq_ok_iff]
    exact ⟨laid, hlaid, hd⟩

/-- What does not fit does not come on a disk. -/
theorem exists_error_of_not_fits (hfits : ¬Fits base entries) :
    ∃ e, layOut base entries d = .error e := by
  cases hd : layOut base entries d with
  | error e => exact ⟨e, rfl⟩
  | ok d' => exact absurd (layOut_eq_ok hbase hne hfree hd).1 hfits

end Run

end Archive

/-! ### Contents to be read -/

namespace PackedEntry

variable {ε : Type}

/-- What of the entry comes on a disk: of a file whose content cannot be read, no bytes. -/
def plain (e : PackedEntry ε) : ArchiveEntry where
  name := e.name
  bytes :=
    match e.content with
    | .whole bytes => bytes
    | .closed _ => []
    | .broken _ => []

/-- What is wrong with the entry, if its content is to be read and cannot. -/
def damage? (e : PackedEntry ε) : Option (ArchiveError ε) :=
  if e.plain.isDirectory then none
  else match e.content with
    | .whole _ => none
    | .closed err => some err
    | .broken err => some err

/-- Nothing is wrong with the entry. -/
def IsIntact (e : PackedEntry ε) : Prop := e.damage? = none

/-- Whatever is packed comes out again. -/
theorem map_plain_packed (entries : List ArchiveEntry) :
    (entries.map (·.packed : ArchiveEntry → PackedEntry ε)).map (·.plain) = entries := by
  rw [List.map_map]
  exact List.map_id entries

variable {e : PackedEntry ε} {err : ArchiveError ε}

/-- A damaged entry is a file, whose content cannot be opened or breaks off. -/
theorem damage?_eq_some : e.damage? = some err
    ↔ e.plain.isDirectory = false ∧ (e.content = .closed err ∨ e.content = .broken err) := by
  rw [damage?]
  cases e.plain.isDirectory <;> cases e.content <;> simp

/-- Nothing is wrong with what is packed. -/
theorem isIntact_of_mem_packed {entries : List ArchiveEntry}
    (he : e ∈ entries.map (·.packed)) : e.IsIntact := by
  obtain ⟨own, -, rfl⟩ := List.mem_map.mp he
  exact ite_self none

end PackedEntry

namespace Archive

section Packed

variable {ε : Type} {base : Place} {d d' : Disk} {e : PackedEntry ε} {err : ArchiveError ε}
  {packed before : List (PackedEntry ε)}

/-- An entry is unpacked in a directory that is there, or has been made. -/
theorem unpackEntry_eq (base : Place) (d : Disk) (e : PackedEntry ε) :
    unpackEntry (pathOf base) d e
      = (d.ensure (Disk.parent (pathOf (base ++ e.plain.parts)))).mapError .system >>= fun made =>
        if e.plain.isDirectory then
          (made.makeDirectory (pathOf (base ++ e.plain.parts)) true).mapError .system
        else match e.content with
          | .whole bytes =>
            (made.writeFile (pathOf (base ++ e.plain.parts)) bytes).mapError .system
          | .closed err => .error (.archive err)
          | .broken err =>
            (made.writeFile (pathOf (base ++ e.plain.parts)) []).mapError .system >>= fun _ =>
              .error (.archive err) := by
  have hpath : entryPath (pathOf base) (cutName e.name) = pathOf (base ++ e.plain.parts) := rfl
  rw [unpackEntry, Disk.ensure]
  dsimp only
  rw [hpath]
  cases d.existsAt (Disk.parent (pathOf (base ++ e.plain.parts))) with
  | error err => rfl
  | ok holds => cases holds <;> rfl

/-- An entry with which nothing is wrong comes on the disk. -/
theorem unpackEntry_intact (h : e.IsIntact) (base : Place) (d : Disk) :
    unpackEntry (pathOf base) d e = (layEntry base d e.plain).mapError .system := by
  rw [unpackEntry_eq, layEntry, Disk.unpackAt, Except.mapError_bind]
  refine bind_congr fun made => ?_
  rw [PackedEntry.IsIntact, PackedEntry.damage?] at h
  split
  · rfl
  · next hfile =>
    rw [if_neg hfile] at h
    cases hcontent : e.content with
    | whole bytes => simp only [PackedEntry.plain, hcontent]
    | closed err => simp [hcontent] at h
    | broken err => simp [hcontent] at h

/-- What the system does for an entry before something is found wrong with it: room is made, and the
file as well if its content can be opened. -/
def layBefore (base : Place) (d : Disk) (e : PackedEntry ε) : Except SystemError Disk :=
  match e.content with
  | .closed _ => d.ensure (Disk.parent (pathOf (base ++ e.plain.parts)))
  | _ => layEntry base d e.plain

/-- There is no more to it than what brings the entry on the disk. -/
theorem exists_layBefore (hd : layEntry base d e.plain = .ok d') :
    ∃ made, layBefore base d e = .ok made := by
  rw [layBefore]
  cases e.content with
  | whole bytes => exact ⟨d', hd⟩
  | broken err => exact ⟨d', hd⟩
  | closed err =>
    rw [layEntry, Disk.unpackAt, Except.bind_eq_ok_iff] at hd
    obtain ⟨made, hmade, -⟩ := hd
    exact ⟨made, hmade⟩

/-- **At an entry with which something is wrong, unpacking breaks off.** -/
theorem unpackEntry_damaged (h : e.damage? = some err) (base : Place) (d : Disk) :
    unpackEntry (pathOf base) d e
      = (layBefore base d e).mapError .system >>= fun _ => .error (.archive err) := by
  obtain ⟨hfile, hclosed | hbroken⟩ := PackedEntry.damage?_eq_some.mp h
  · rw [unpackEntry_eq, layBefore, hfile, hclosed]
    rfl
  · -- the file is on the disk, without a byte, before its content breaks off
    have hbytes : e.plain.bytes = [] := by simp only [PackedEntry.plain, hbroken]
    rw [unpackEntry_eq, layBefore, hfile, hbroken]
    dsimp only
    rw [layEntry, Disk.unpackAt, hfile, hbytes, Except.mapError_bind, bind_assoc]
    rfl

/-- Entries with which nothing is wrong come on the disk. -/
theorem unpack_intact (h : ∀ e ∈ packed, e.IsIntact) (base : Place) (d : Disk) :
    unpack (pathOf base) packed d = (layOut base (packed.map (·.plain)) d).mapError .system := by
  rw [unpack, layOut]
  induction packed generalizing d with
  | nil => rfl
  | cons e packed ih =>
    rw [List.map_cons, List.foldlM_cons, List.foldlM_cons, Except.mapError_bind,
      unpackEntry_intact (h e List.mem_cons_self)]
    exact bind_congr fun laid => ih (fun b hb => h b (List.mem_cons_of_mem _ hb)) laid

/-- The first entry of an archive with which something is wrong, and what stands before it. -/
structure IsFirstDamage (packed before : List (PackedEntry ε)) (e : PackedEntry ε)
    (err : ArchiveError ε) : Prop where
  /-- The archive goes on with the entry after what stands before it. -/
  isPrefix : before ++ [e] <+: packed
  /-- Nothing is wrong with what stands before it. -/
  intact : ∀ b ∈ before, b.IsIntact
  /-- This is what is wrong with it. -/
  damage : e.damage? = some err

/-- If something is wrong with an entry, there is a first one. -/
theorem exists_isFirstDamage (h : ¬∀ e ∈ packed, e.IsIntact) :
    ∃ before e err, IsFirstDamage packed before e err := by
  induction packed with
  | nil => exact absurd (fun e he => absurd he List.not_mem_nil) h
  | cons first packed ih =>
    cases hfirst : first.damage? with
    | some err =>
      exact ⟨[], first, err, ⟨packed, rfl⟩, fun b hb => absurd hb List.not_mem_nil, hfirst⟩
    | none =>
      obtain ⟨before, e, err, hprefix, hintact, hdamage⟩ := ih fun hall =>
        h (List.forall_mem_cons.mpr ⟨hfirst, hall⟩)
      exact ⟨first :: before, e, err, List.cons_prefix_cons.mpr ⟨rfl, hprefix⟩,
        List.forall_mem_cons.mpr ⟨hfirst, hintact⟩, hdamage⟩

/-- **Unpacking goes as far as the first entry with which something is wrong.** -/
theorem IsFirstDamage.unpack_eq (h : IsFirstDamage packed before e err) (base : Place) (d : Disk) :
    unpack (pathOf base) packed d
      = (layOut base (before.map (·.plain)) d >>= fun laid => layBefore base laid e).mapError .system
          >>= fun _ => .error (.archive err) := by
  obtain ⟨after, rfl⟩ := h.isPrefix
  have hbefore := unpack_intact h.intact base d
  rw [unpack] at hbefore
  rw [unpack, List.append_assoc, List.foldlM_append, hbefore, Except.mapError_bind, bind_assoc]
  refine bind_congr fun laid => ?_
  rw [List.singleton_append, List.foldlM_cons, unpackEntry_damaged h.damage, bind_assoc]
  rfl

/-- Unpacking ends in nothing but this, or in what the system refuses before. -/
theorem IsFirstDamage.unpack_eq_error (h : IsFirstDamage packed before e err) (base : Place)
    (d : Disk) :
    unpack (pathOf base) packed d = .error (.archive err)
      ∨ ∃ s, unpack (pathOf base) packed d = .error (.system s) := by
  rw [h.unpack_eq]
  cases layOut base (before.map (·.plain)) d >>= fun laid => layBefore base laid e with
  | error s => exact Or.inr ⟨s, rfl⟩
  | ok made => exact Or.inl rfl

section Room

variable (hbase : CanName base) (hne : base ≠ []) (hfree : Unpacked base [] d)
include hbase hne hfree

/-- Where there is room for the entry, what is wrong with it is told. -/
theorem IsFirstDamage.unpack_of_fits (h : IsFirstDamage packed before e err)
    (hfits : Fits base (before.map (·.plain) ++ [e.plain])) :
    unpack (pathOf base) packed d = .error (.archive err) := by
  obtain ⟨d', hd⟩ := exists_layOut hbase hne hfree hfits
  rw [layOut_concat, Except.bind_eq_ok_iff] at hd
  obtain ⟨laid, hlaid, hd⟩ := hd
  obtain ⟨made, hmade⟩ := exists_layBefore hd
  rw [h.unpack_eq, Except.bind_eq_ok_iff.mpr ⟨laid, hlaid, hmade⟩]
  rfl

/-- Where there is no room for what stands before the entry, the system refuses. -/
theorem IsFirstDamage.unpack_of_not_fits (h : IsFirstDamage packed before e err)
    (hfits : ¬Fits base (before.map (·.plain))) :
    ∃ s, unpack (pathOf base) packed d = .error (.system s) := by
  obtain ⟨s, hs⟩ := exists_error_of_not_fits hbase hne hfree hfits
  refine ⟨s, ?_⟩
  rw [h.unpack_eq, hs]
  rfl

end Room

end Packed

/-! ### The directory that the files are in -/

variable {base : Place} {d : Disk} {entries : List ArchiveEntry}

/-- The names of the entries at the top of an archive. -/
def topNames (entries : List ArchiveEntry) : List String :=
  (entries.filterMap (·.parts.head?)).dedup

/-- Where the files of an archive are: in the only entry at its top, if this is a directory; or in
the archive itself. -/
def topPlace (entries : List ArchiveEntry) : Place :=
  match topNames entries with
  | [name] => if leaves? entries [name] = some .directory then [name] else []
  | _ => []

theorem mem_topNames {name : String} :
    name ∈ topNames entries ↔ (leaves? entries [name]).isSome := by
  rw [topNames, List.mem_dedup, List.mem_filterMap, isSome_leaves?_iff]
  apply exists_congr
  intro e
  apply and_congr_right
  intro _
  rw [List.head?_eq_some_iff]
  constructor
  · rintro ⟨rest, hrest⟩
    exact ⟨rest, hrest.symm⟩
  · rintro ⟨rest, hrest⟩
    exact ⟨rest, hrest.symm⟩

section Top

variable (h : Unpacked base entries d)
include h

section Children

variable {children : List (String × DiskNode)} (hat : d.root.at? base = some (.directory children))
include hat

/-- What an archive leaves at its top is in the directory that it has been unpacked to. -/
theorem Unpacked.leaves?_name (name : String) :
    leaves? entries [name] = (Entries.find? name children).map (·.kind) := by
  rw [← h.inside, DiskNode.kindAt?_append hat, DiskNode.kindAt?_directory_cons]
  cases Entries.find? name children <;> rfl

/-- The names at the top of an archive are those in the directory. -/
theorem Unpacked.topNames_perm : (topNames entries).Perm (Entries.keys children) := by
  have hnodup : (Entries.keys children).Nodup := by
    cases h.sound.tidy.at? hat with
    | directory nodup inside => exact nodup
  apply (List.perm_ext_iff_of_nodup (List.nodup_dedup _) hnodup).mpr
  intro name
  rw [← topNames, mem_topNames, h.leaves?_name hat, Option.isSome_map, Entries.isSome_find?_iff]

end Children

variable (hbase : CanName base)
include hbase

/-- The directory that the files are in is the only entry at the top, if this is a directory. -/
theorem Unpacked.topDirectory_eq (hdir : leaves? entries [] = some .directory) :
    topDirectory (pathOf base) d = .ok (pathOf (base ++ topPlace entries)) := by
  have hkind : d.root.kindAt? base = some .directory := by
    rw [← hdir, ← h.inside, List.append_nil]
  obtain ⟨children, hat⟩ := DiskNode.kindAt?_eq_directory.mp hkind
  have hperm := h.topNames_perm hat
  rw [Archive.topDirectory, (h.sound.find_eq_ok_iff hbase).mpr hat]
  by_cases hone : ∃ name child, children = [(name, child)]
  · obtain ⟨name, child, rfl⟩ := hone
    have hname := h.leaves?_name hat name
    rw [Entries.find?_cons, if_pos rfl, Option.map_some] at hname
    have htop : topNames entries = [name] := List.perm_singleton.mp hperm
    rw [topPlace, htop]
    dsimp only
    rw [hname]
    cases child with
    | directory inside => rfl
    | file bytes => rw [if_neg (by simp), List.append_nil]; rfl
    | link target => rw [if_neg (by simp [DiskNode.kind]), List.append_nil]; rfl
  · have htop : topPlace entries = [] := by
      rw [topPlace]
      split
      · next name heq =>
        rw [heq, List.singleton_perm] at hperm
        obtain ⟨⟨key, child⟩, hsingle, -⟩ := List.map_eq_singleton_iff.mp hperm.symm
        exact absurd ⟨key, child, hsingle⟩ hone
      · rfl
    rw [htop, List.append_nil]
    rcases children with _ | ⟨first, _ | ⟨second, rest⟩⟩
    · rfl
    · exact absurd ⟨first.1, first.2, rfl⟩ hone
    · obtain ⟨name, child⟩ := first
      cases child <;> rfl

/-- There is such a directory only if the archive is one. -/
theorem Unpacked.leaves?_of_topDirectory {top : Path}
    (htop : Archive.topDirectory (pathOf base) d = .ok top) :
    leaves? entries [] = some .directory := by
  rw [Archive.topDirectory, Except.bind_eq_ok_iff] at htop
  obtain ⟨node, hfind, htop⟩ := htop
  have hat := (h.sound.find_eq_ok_iff hbase).mp hfind
  rw [← h.inside, List.append_nil, DiskNode.kindAt?, hat]
  cases node with
  | directory children => rfl
  | file bytes => cases htop
  | link target => cases htop

end Top

end Archive
end ClassLineage
