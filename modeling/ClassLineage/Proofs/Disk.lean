import ClassLineage.Disk
import ClassLineage.Proofs.Entries
import ClassLineage.Proofs.Except
import ClassLineage.Proofs.Path

/-!
# Following paths below a directory

The system follows the text of a path.  Below a directory that a path leads to, the names
of a place lead, one after the other, to what stands at that place, links excepted.

## Main definitions

* `DiskNode.HasNames` — the names below a node are names that a system allows.
* `Disk.start` — the place from which a path is followed.

## Main results

* `Disk.rawParts_toText` — the parts of the text of a path, as the system reads it.
* `Disk.follow_append` — **what follows a path is followed from where it leads.**
* `Disk.find_below` — **below a directory a path leads to what stands there.**
* `Disk.isFile_iff` — where a file is, its bytes are read.
-/

namespace ClassLineage

/-! ### Places of a tree -/

namespace DiskNode

/-- The names below a node are names that a system allows: each says something, holds no
slash, and is not the way up. -/
def HasNames (node : DiskNode) : Prop := ∀ place ∈ node.places, ∀ name ∈ place, Path.IsName name

instance (node : DiskNode) : Decidable node.HasNames :=
  inferInstanceAs (Decidable (∀ place ∈ node.places, ∀ name ∈ place, Path.IsName name))

theorem at?_append (place more : Place) (node : DiskNode) :
    node.at? (place ++ more) = (node.at? place).bind (at? more) := by
  induction place generalizing node with
  | nil => rfl
  | cons name place ih =>
    cases node with
    | file bytes => rfl
    | link target => rfl
    | directory entries =>
      rw [List.cons_append, at?, at?]
      cases Entries.find? name entries with
      | none => rfl
      | some child => exact ih child

theorem at?_concat {place : Place} {name : String} {node child : DiskNode}
    {entries : List (String × DiskNode)} (hat : node.at? place = some (.directory entries))
    (hchild : Entries.find? name entries = some child) :
    node.at? (place ++ [name]) = some child := by
  rw [at?_append, hat, Option.bind_some, at?, hchild]
  rfl

/-- The places of entries are their names, and the places below them. -/
theorem mem_placesOf {entries : List (String × DiskNode)} {place : Place} :
    place ∈ placesOf entries
      ↔ ∃ e ∈ entries, place = [e.1] ∨ ∃ q ∈ e.2.places, place = e.1 :: q := by
  induction entries with
  | nil => simp [placesOf]
  | cons e rest ih =>
    obtain ⟨name, child⟩ := e
    rw [placesOf, List.mem_append, List.mem_cons, List.mem_map, ih]
    constructor
    · rintro ((h | ⟨q, hq, h⟩) | ⟨e, he, h⟩)
      · exact ⟨_, List.mem_cons_self, Or.inl h⟩
      · exact ⟨_, List.mem_cons_self, Or.inr ⟨q, hq, h.symm⟩⟩
      · exact ⟨e, List.mem_cons_of_mem _ he, h⟩
    · rintro ⟨e, he, h⟩
      rcases List.mem_cons.mp he with rfl | he
      · rcases h with h | ⟨q, hq, h⟩
        · exact Or.inl (Or.inl h)
        · exact Or.inl (Or.inr ⟨q, hq, h.symm⟩)
      · exact Or.inr ⟨e, he, h⟩

/-- The places below a node of a tree are places of the tree. -/
theorem places_at? {root node : DiskNode} {place q : Place} (h : root.at? place = some node)
    (hq : q ∈ node.places) : place ++ q ∈ root.places := by
  induction place generalizing root with
  | nil =>
    obtain rfl := Option.some.inj h
    exact hq
  | cons name place ih =>
    cases root with
    | file bytes => exact absurd h (by simp [at?])
    | link target => exact absurd h (by simp [at?])
    | directory entries =>
      rw [at?, Option.bind_eq_some_iff] at h
      obtain ⟨child, hchild, h⟩ := h
      rw [places, List.cons_append, mem_placesOf]
      exact ⟨_, Entries.mem_of_find? hchild, Or.inr ⟨_, ih h, rfl⟩⟩

/-- The names below a node of a tree are names of the tree. -/
theorem HasNames.at? {root node : DiskNode} (h : root.HasNames) {place : Place}
    (hnode : root.at? place = some node) : node.HasNames := fun _ hq name hname =>
  h _ (places_at? hnode hq) name (List.mem_append_right _ hname)

end DiskNode

namespace Disk

/-! ### What the system reads -/

/-- The place from which a path is followed. -/
def start (d : Disk) (p : Path) : Place := if p.isAbsolute then [] else d.here

/-- The parts of the text of a path, as the system reads it: of a path without parts, the
point or the slash that it ends with asks for a directory. -/
theorem rawParts_toText {p : Path} (h : p.IsRead) :
    rawParts p.toText = if p.parts = [] then ["."] else p.parts := by
  by_cases hparts : p.parts = []
  · obtain ⟨lead, parts⟩ := p
    obtain rfl : parts = [] := hparts
    rw [if_pos rfl]
    cases lead <;> decide
  · rw [if_neg hparts, rawParts]
    have hne : ¬(p.lead = .relative ∧ p.parts = []) := fun h => hparts h.2
    have hpieces := @Path.filter_splitAll_toText p h (fun s => decide (s ≠ ""))
      (fun part hp => by simpa using (h part hp).ne_empty) (by decide) hne
    -- the text ends with its last part, which holds no slash, and so asks for no directory
    have hlast : p.toText.toList.getLast? ≠ some '/' := by
      obtain ⟨init, part, hinit⟩ := List.eq_nil_or_concat p.parts |>.resolve_left hparts
      rw [List.concat_eq_append] at hinit
      have hplain := h part (by rw [hinit]; simp)
      have hchars : part.toList ≠ [] := fun hnil =>
        hplain.ne_empty (String.toList_eq_nil_iff.mp hnil)
      have hlast := List.getLast?_eq_some_getLast hchars
      have hsuffix : part.toList <:+ p.toText.toList := by
        rw [Path.toText, if_neg hne, String.toList_append, hinit]
        refine List.IsSuffix.trans ?_ (List.suffix_append _ _)
        by_cases hnil : init = []
        · exact ⟨[], by rw [hnil, List.nil_append, List.nil_append, String.intercalate_singleton]⟩
        · rw [String.intercalate_append_of_ne_nil hnil (List.cons_ne_nil _ _),
            String.intercalate_singleton, String.toList_append]
          exact List.suffix_append _ _
      obtain ⟨before, hbefore⟩ := hsuffix
      rw [← hbefore, List.getLast?_append, hlast, Option.some_or]
      intro hslash
      exact hplain.noSlash _ (List.getLast_mem hchars) (Option.some.inj hslash)
    rw [if_neg hlast, List.append_nil]
    exact hpieces

theorem toText_ne_empty {p : Path} (h : p.IsRead) : p.toText ≠ "" := by
  intro hempty
  have hp := Path.ofText_toText h
  rw [hempty] at hp
  rw [← hp] at hempty
  exact absurd hempty (by decide)

/-- The text of a path leads where its parts lead, if the system takes it. -/
theorem followText_toText {d : Disk} {p : Path} (h : p.IsRead)
    (htext : '\x00' ∉ p.toText.toList ∧ p.toText.utf8ByteSize < maxPathBytes) :
    d.followText p.toText
      = follow d.root maxLinks (d.start p) (if p.parts = [] then ["."] else p.parts) := by
  rw [followText, if_neg (by simpa using htext.1), if_neg (toText_ne_empty h),
    if_neg (Nat.not_le.mpr htext.2), rawParts_toText h, Path.ofText_toText h]
  rfl

/-- The text of a path leads somewhere if the system takes it, and where its parts lead. -/
theorem followText_eq_ok_iff {d : Disk} {p : Path} (h : p.IsRead) {t : Target} :
    d.followText p.toText = .ok t
      ↔ ('\x00' ∉ p.toText.toList ∧ p.toText.utf8ByteSize < maxPathBytes)
        ∧ follow d.root maxLinks (d.start p) (if p.parts = [] then ["."] else p.parts) = .ok t := by
  constructor
  · intro ht
    have htext : '\x00' ∉ p.toText.toList ∧ p.toText.utf8ByteSize < maxPathBytes := by
      constructor
      · intro hnull
        rw [followText, if_pos (by simpa using hnull)] at ht
        exact absurd ht (by simp)
      · refine Nat.lt_of_not_le fun hlong => ?_
        rw [followText, if_neg (toText_ne_empty h), if_pos hlong] at ht
        split at ht <;> exact absurd ht (by simp)
    rw [followText_toText h htext] at ht
    exact ⟨htext, ht⟩
  · rintro ⟨htext, ht⟩
    rw [followText_toText h htext, ht]

/-- Where the text of a path leads, its parts lead. -/
theorem follow_of_followText {d : Disk} {p : Path} (h : p.IsRead) {t : Target}
    (ht : d.followText p.toText = .ok t) :
    follow d.root maxLinks (d.start p) (if p.parts = [] then ["."] else p.parts) = .ok t :=
  ((followText_eq_ok_iff h).mp ht).2

/-- A path leads to a node where its text leads to the place of it. -/
theorem find_eq_ok_iff {d : Disk} {p : Path} {node : DiskNode} :
    d.find p = .ok node ↔
      ∃ place, d.followText p.toText = .ok (.present place) ∧ d.root.at? place = some node := by
  rw [find, findText, Except.bind_eq_ok_iff]
  constructor
  · rintro ⟨t, ht, h⟩
    cases t with
    | absent place => exact absurd h (by simp)
    | present place =>
      refine ⟨place, ht, ?_⟩
      dsimp only at h
      split at h
      · next found hfound => rw [hfound, Except.ok.inj h]
      · exact absurd h (by simp)
  · rintro ⟨place, ht, hnode⟩
    refine ⟨_, ht, ?_⟩
    dsimp only
    rw [hnode]
    rfl

/-! ### Following part by part -/

section Steps

variable {root : DiskNode} {links : Nat} {place : Place} {part : String} {rest : List String}
  {entries : List (String × DiskNode)}

theorem follow_point (hat : root.at? place = some (.directory entries)) :
    follow root links place ("." :: rest) = follow root links place rest := by
  rw [follow, hat]
  simp only [if_true]

theorem follow_up (hat : root.at? place = some (.directory entries)) :
    follow root links place (".." :: rest) = follow root links place.dropLast rest := by
  have hne : (".." : String) ≠ "." := by decide
  rw [follow, hat]
  simp only [hne, if_false, if_true]

/-- A name that is no link leads to the node of that name. -/
theorem follow_name (hat : root.at? place = some (.directory entries)) (hpoint : part ≠ ".")
    (hup : part ≠ "..") (hlen : ¬maxNameBytes < part.utf8ByteSize) {child : DiskNode}
    (hlink : ∀ target, child ≠ .link target) (hchild : Entries.find? part entries = some child) :
    follow root links place (part :: rest) = follow root links (place ++ [part]) rest := by
  rw [follow, hat]
  simp only [hpoint, hup, hlen, if_false, hchild]

/-- The last name on a path may be free. -/
theorem follow_free (hat : root.at? place = some (.directory entries)) (hpoint : part ≠ ".")
    (hup : part ≠ "..") (hlen : ¬maxNameBytes < part.utf8ByteSize)
    (hchild : Entries.find? part entries = none) :
    follow root links place [part] = .ok (.absent (place ++ [part])) := by
  rw [follow, hat]
  simp only [hpoint, hup, hlen, if_false, hchild, if_true]

/-- A link leads to where its target leads. -/
theorem follow_target (hat : root.at? place = some (.directory entries)) (hpoint : part ≠ ".")
    (hup : part ≠ "..") (hlen : ¬maxNameBytes < part.utf8ByteSize) {target : String}
    (hchild : Entries.find? part entries = some (.link target)) :
    follow root (links + 1) place (part :: rest)
      = follow root links (if (Path.ofText target).isAbsolute then [] else place)
          (rawParts target ++ rest) := by
  rw [follow, hat]
  simp only [hpoint, hup, hlen, if_false, hchild]

end Steps

/-- **What follows a path is followed from where it leads,** with the links that are left. -/
theorem follow_append {root : DiskNode} {links : Nat} {place place' : Place} {parts : List String}
    (h : follow root links place parts = .ok (.present place')) :
    ∃ left, ∀ rest, follow root links place (parts ++ rest) = follow root left place' rest := by
  fun_induction follow root links place parts with
  | case1 links place =>
    obtain rfl : place = place' := by simpa using h
    exact ⟨links, fun rest => rfl⟩
  | case2 => exact absurd h (by simp)
  | case3 links place rest entries hat ih =>
    obtain ⟨left, hleft⟩ := ih h
    exact ⟨left, fun more => (follow_point hat).trans (hleft more)⟩
  | case4 links place rest entries hat _ ih =>
    obtain ⟨left, hleft⟩ := ih h
    exact ⟨left, fun more => (follow_up hat).trans (hleft more)⟩
  | case5 => exact absurd h (by simp)
  | case6 => exact absurd h (by simp)
  | case7 => exact absurd h (by simp)
  | case8 => exact absurd h (by simp)
  | case9 place part rest entries hat hpoint hup hlen target hchild links ih =>
    -- a link takes one of those that are left, and its target goes in front
    obtain ⟨left, hleft⟩ := ih h
    refine ⟨left, fun more => ?_⟩
    rw [List.cons_append, follow_target hat hpoint hup hlen hchild, ← List.append_assoc]
    exact hleft more
  | case10 links place part rest entries hat hpoint hup hlen child hlink hchild ih =>
    obtain ⟨left, hleft⟩ := ih h
    refine ⟨left, fun more => ?_⟩
    rw [List.cons_append, follow_name hat hpoint hup hlen (fun t ht => hlink t ht) hchild]
    exact hleft more
  | case11 => exact absurd h (by simp)

/-- From a node, the names of a place lead to what stands there, unless one of them is too
long; only a link leads on. -/
theorem follow_place {root node target : DiskNode} {links : Nat} {place q : Place}
    (hat : root.at? place = some node) (hq : node.at? q = some target)
    (htarget : ∀ text, target ≠ .link text)
    (hnames : ∀ name ∈ q, Path.IsName name) :
    follow root links place q = .ok (.present (place ++ q))
      ∨ (∃ name ∈ q, maxNameBytes < name.utf8ByteSize)
        ∧ follow root links place q = .error .nameTooLong := by
  induction q generalizing place node with
  | nil =>
    rw [follow, List.append_nil]
    exact Or.inl rfl
  | cons name q ih =>
    obtain ⟨hplain, hup⟩ := hnames name List.mem_cons_self
    cases node with
    | file bytes => exact absurd hq (by simp [DiskNode.at?])
    | link text => exact absurd hq (by simp [DiskNode.at?])
    | directory entries =>
      rw [DiskNode.at?, Option.bind_eq_some_iff] at hq
      obtain ⟨child, hchild, hq⟩ := hq
      by_cases hlen : maxNameBytes < name.utf8ByteSize
      · refine Or.inr ⟨⟨name, List.mem_cons_self, hlen⟩, ?_⟩
        rw [follow, hat]
        simp only [hplain.ne_point, hup, hlen, if_true, if_false]
      · -- a link on the way would have to be the target itself
        have hlink : ∀ text, child ≠ .link text := by
          rintro text rfl
          cases q with
          | nil => exact htarget text (Option.some.inj hq).symm
          | cons _ _ => exact absurd hq (by simp [DiskNode.at?])
        have hat' := DiskNode.at?_concat hat hchild
        rw [follow_name hat hplain.ne_point hup hlen hlink hchild]
        rcases ih hat' hq fun n hn => hnames n (List.mem_cons_of_mem _ hn) with
          hok | ⟨⟨n, hn, hlong⟩, herror⟩
        · rw [hok, List.append_assoc, List.singleton_append]
          exact Or.inl rfl
        · exact Or.inr ⟨⟨n, List.mem_cons_of_mem _ hn, hlong⟩, herror⟩

/-- A name leads to itself if it is free where relative paths start. -/
theorem followText_free {d : Disk} {name : String} {entries : List (String × DiskNode)}
    (hname : Path.IsName name) (hlen : ¬maxNameBytes < name.utf8ByteSize)
    (htext : '\x00' ∉ (Path.mk .relative [name]).toText.toList
      ∧ (Path.mk .relative [name]).toText.utf8ByteSize < maxPathBytes)
    (hat : d.root.at? d.here = some (.directory entries))
    (hfree : Entries.find? name entries = none) :
    d.followText (Path.mk .relative [name]).toText = .ok (.absent (d.here ++ [name])) := by
  obtain ⟨hplain, hup⟩ := hname
  have hread : (Path.mk .relative [name]).IsRead := fun part hpart =>
    List.mem_singleton.mp hpart ▸ hplain
  rw [followText_toText hread htext, if_neg (List.cons_ne_nil _ _)]
  exact follow_free hat hplain.ne_point hup hlen hfree

/-- A point leads nowhere else. -/
theorem eq_of_follow_point {root : DiskNode} {links : Nat} {place place' : Place}
    (h : follow root links place ["."] = .ok (.present place')) : place' = place := by
  rw [follow] at h
  split at h
  · exact absurd h (by simp)
  · rw [if_pos rfl, follow, Except.ok.injEq, Target.present.injEq] at h
    exact h.symm
  · exact absurd h (by simp)

/-- What follows a path that leads to a place is followed from there. -/
theorem follow_below {d : Disk} {p : Path} (hp : p.IsRead) {place : Place}
    (h : d.followText p.toText = .ok (.present place)) :
    ∃ left, ∀ q,
      follow d.root maxLinks (d.start p) (p.parts ++ q) = follow d.root left place q := by
  have hfollow := follow_of_followText hp h
  by_cases hparts : p.parts = []
  · rw [if_pos hparts] at hfollow
    refine ⟨maxLinks, fun q => ?_⟩
    rw [hparts, List.nil_append, eq_of_follow_point hfollow]
  · rw [if_neg hparts] at hfollow
    exact follow_append hfollow

/-- **Below a directory a path leads to what stands there:** the path of a place leads, if
anywhere, to the node at that place, unless this is a link. -/
theorem find_below {d : Disk} {p : Path} (hp : p.IsRead) {node target found : DiskNode}
    (hnode : d.find p = .ok node) {q : Place}
    (hnames : ∀ name ∈ q, Path.IsName name) (hq : node.at? q = some target)
    (htarget : ∀ text, target ≠ .link text) (hfound : d.find (p.below q) = .ok found) :
    found = target := by
  by_cases hne : q = []
  · subst hne
    rw [Path.below_nil, hnode, Except.ok.injEq] at hfound
    exact hfound ▸ Option.some.inj hq
  · obtain ⟨place, htext, hat⟩ := find_eq_ok_iff.mp hnode
    obtain ⟨place', htext', hat'⟩ := find_eq_ok_iff.mp hfound
    have hread : (p.below q).IsRead := hp.below fun name hname => (hnames name hname).1
    -- the parts of the directory lead to its node, and from there the names lead on
    have hfollow := follow_of_followText hread htext'
    obtain ⟨left, hleft⟩ := follow_below hp htext
    have hparts : (p.below q).parts = p.parts ++ q := rfl
    rw [hparts, if_neg (by simp [hne])] at hfollow
    have hplace : follow d.root left place q = .ok (.present place') := (hleft q).symm.trans hfollow
    obtain rfl : place' = place ++ q := by
      rcases follow_place hat hq htarget hnames with hok | ⟨-, herror⟩
      · simpa using hplace.symm.trans hok
      · exact absurd (hplace.symm.trans herror) (by simp)
    rw [DiskNode.at?_append, hat, Option.bind_some, hq, Option.some.injEq] at hat'
    exact hat'.symm

/-- The names that lead to a node lead there as a path, if the system takes them. -/
theorem find_of_at? {d : Disk} {lead : PathLead} {q : Place} {target : DiskNode} (hne : q ≠ [])
    (hq : d.root.at? (d.start ⟨lead, q⟩ ++ q) = some target) (htarget : ∀ text, target ≠ .link text)
    (hnames : ∀ name ∈ q, Path.IsName name ∧ name.utf8ByteSize ≤ maxNameBytes)
    (htext : '\x00' ∉ (Path.mk lead q).toText.toList
      ∧ (Path.mk lead q).toText.utf8ByteSize < maxPathBytes) :
    d.find ⟨lead, q⟩ = .ok target := by
  have hread : (Path.mk lead q).IsRead := fun name hname => (hnames name hname).1.1
  refine find_eq_ok_iff.mpr ⟨d.start ⟨lead, q⟩ ++ q, ?_, hq⟩
  rw [DiskNode.at?_append, Option.bind_eq_some_iff] at hq
  obtain ⟨node, hat, hq⟩ := hq
  rw [followText_toText hread htext, if_neg hne]
  rcases follow_place hat hq htarget fun n hn => (hnames n hn).1 with hok | ⟨⟨n, hn, hlong⟩, -⟩
  · exact hok
  · exact absurd (hnames n hn).2 (by omega)

/-! ### Files -/

theorem test_eq_true_iff {property : DiskNode → Bool} {d : Disk} {p : Path} :
    d.test property p = .ok true ↔ ∃ node, d.find p = .ok node ∧ property node = true := by
  rw [test]
  cases d.find p with
  | ok node => simp
  | error e =>
    dsimp only
    split <;> simp

/-- **Where a file is, its bytes are read.** -/
theorem isFile_iff {d : Disk} {p : Path} :
    d.isFile p = .ok true ↔ ∃ bytes, d.readBytes p = .ok bytes := by
  have hread : d.readBytes p = d.find p >>= bytesOf := rfl
  simp only [isFile, test_eq_true_iff, hread, Except.bind_eq_ok_iff]
  constructor
  · rintro ⟨node, hfind, hbytes⟩
    cases node with
    | file bytes => exact ⟨bytes, _, hfind, rfl⟩
    | link target => exact absurd hbytes (by simp [DiskNode.bytes?])
    | directory entries => exact absurd hbytes (by simp [DiskNode.bytes?])
  · rintro ⟨bytes, node, hfind, hbytes⟩
    cases node with
    | file own => exact ⟨_, hfind, rfl⟩
    | link target => exact absurd hbytes (by simp [bytesOf])
    | directory entries => exact absurd hbytes (by simp [bytesOf])

/-- The bytes that are read at a path are those of the file that it leads to. -/
theorem readBytes_of_find {d : Disk} {p : Path} {bytes : List UInt8}
    (h : d.find p = .ok (.file bytes)) : d.readBytes p = .ok bytes := by
  have hread : d.readBytes p = d.find p >>= bytesOf := rfl
  rw [hread, h]
  rfl

theorem find_of_readBytes {d : Disk} {p : Path} {bytes : List UInt8}
    (h : d.readBytes p = .ok bytes) : d.find p = .ok (.file bytes) := by
  obtain ⟨node, hfind, hnode⟩ := test_eq_true_iff.mp (isFile_iff.mpr ⟨bytes, h⟩)
  cases node with
  | file own =>
    rw [readBytes_of_find hfind, Except.ok.injEq] at h
    rw [hfind, h]
  | link target => exact absurd hnode (by simp [DiskNode.bytes?])
  | directory entries => exact absurd hnode (by simp [DiskNode.bytes?])

end Disk
end ClassLineage
