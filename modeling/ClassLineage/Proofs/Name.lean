import ClassLineage.Name.Resolve
import ClassLineage.Proofs.Entries
import ClassLineage.Proofs.Text.Trim
import Mathlib.Data.List.TakeWhile

/-!
# Names and their separators

What trimming and cutting do to a name whose ends are no separators, and that every
name with substance stands for something: for a name that starts with a segment.

## Main definitions

* `Name.IsTight` — a text that starts and ends with a character of a segment.
* `Name.IsFull` — a text that starts with a character of a segment.

## Main results

* `Name.IsTight.trimSeparators` — such a text has nothing to trim.
* `Name.lastSegment_join` — the last segment of a name is that of what follows a separator.
* `Name.isTight_trimSeparators` — what trimming leaves is tight.
* `Name.resolve_isSome` — a name with substance is resolved.
* `Name.isFull_resolve` — **a name that is resolved stands for a full name.**
* `Name.IsFull.normalize_ne` — a full name is not that of a text of separators.
-/

namespace ClassLineage
namespace Name

open Text

/-- The text starts and ends with a character that is no separator. -/
structure IsTight (s : String) : Prop where
  /-- The first character is no separator. -/
  first : ∃ c cs, s.toList = c :: cs ∧ isSeparator c = false
  /-- The last character is no separator. -/
  last : ∃ cs c, s.toList = cs ++ [c] ∧ isSeparator c = false

theorem toList_separator : separator.toList = ['\\'] := rfl

/-! ### Trimming -/

/-- Nothing is trimmed before a character that is no separator. -/
theorem trimLeading_eq_self {s : String}
    (h : ∃ c cs, s.toList = c :: cs ∧ isSeparator c = false) : trimLeading s = s := by
  obtain ⟨c, cs, hs, hc⟩ := h
  rw [← String.toList_inj, trimLeading, toList_trimStart, hs,
    List.dropWhile_cons_of_neg (by simp [hc])]

/-- Nothing is trimmed after a character that is no separator. -/
theorem trimEnd_eq_self {s : String}
    (h : ∃ cs c, s.toList = cs ++ [c] ∧ isSeparator c = false) :
    trimEnd isSeparator s = s := by
  obtain ⟨cs, c, hs, hc⟩ := h
  rw [← String.toList_inj, toList_trimEnd, hs, List.reverse_concat,
    List.dropWhile_cons_of_neg (by simp [hc]), List.reverse_cons, List.reverse_reverse]

/-- A separator before the text is trimmed. -/
theorem trimSeparators_separator_append (s : String) :
    trimSeparators (separator ++ s) = trimSeparators s := by
  have hlead : trimLeading (separator ++ s) = trimLeading s := by
    rw [← String.toList_inj, trimLeading, trimLeading, toList_trimStart, toList_trimStart,
      String.toList_append, toList_separator, List.singleton_append,
      List.dropWhile_cons_of_pos rfl]
  rw [trimSeparators, trimSeparators, trimBoth, trimBoth]
  show trimEnd isSeparator (trimLeading (separator ++ s)) = trimEnd isSeparator (trimLeading s)
  rw [hlead]

namespace IsTight

variable {s : String}

theorem ne_empty (h : IsTight s) : s ≠ "" := by
  rintro rfl
  obtain ⟨c, cs, hs, _⟩ := h.first
  exact List.cons_ne_nil c cs hs.symm

theorem isTrimmed (h : IsTight s) : IsTrimmed isSeparator s := by
  obtain ⟨c, cs, hs, hc⟩ := h.first
  obtain ⟨ds, d, hds, hd⟩ := h.last
  constructor
  · rw [hs, List.head?_cons]
    exact fun _ hfirst => Option.some.inj hfirst ▸ hc
  · rw [hds, List.getLast?_concat]
    exact fun _ hlast => Option.some.inj hlast ▸ hd

theorem trimSeparators (h : IsTight s) : trimSeparators s = s := h.isTrimmed.trimBoth_eq

/-- A separator after the text is trimmed. -/
theorem trimSeparators_append (h : IsTight s) : Name.trimSeparators (s ++ separator) = s := by
  have hpad : trimBoth isSeparator ("" ++ s ++ separator) = s :=
    h.isTrimmed.trimBoth_pad h.ne_empty (by simp) (by simp [toList_separator, isSeparator])
  rwa [String.empty_append] at hpad

end IsTight

/-- A text is tight if nothing is to be trimmed and something is there. -/
theorem isTight_of_isTrimmed {s : String} (h : IsTrimmed isSeparator s) (hne : s ≠ "") :
    IsTight s := by
  have hnil : s.toList ≠ [] := mt String.toList_eq_nil_iff.mp hne
  constructor
  · obtain ⟨c, cs, hcs⟩ := List.exists_cons_of_ne_nil hnil
    exact ⟨c, cs, hcs, h.first c (by rw [hcs]; rfl)⟩
  · have hlast := List.getLast?_eq_some_getLast hnil
    exact ⟨_, _, (List.dropLast_concat_getLast hnil).symm, h.last _ hlast⟩

/-- What is left of a text without the separators at its ends is tight, if anything is. -/
theorem isTight_trimSeparators {s : String} (h : Name.trimSeparators s ≠ "") :
    IsTight (Name.trimSeparators s) :=
  isTight_of_isTrimmed (isTrimmed_trimBoth isSeparator s) h

/-- A tight name below a tight one is tight. -/
theorem IsTight.join {a b : String} (ha : IsTight a) (hb : IsTight b) :
    IsTight (a ++ separator ++ b) := by
  obtain ⟨c, cs, hcs, hc⟩ := ha.first
  obtain ⟨ds, d, hds, hd⟩ := hb.last
  constructor
  · refine ⟨c, cs ++ separator.toList ++ b.toList, ?_, hc⟩
    rw [String.toList_append, String.toList_append, hcs, List.cons_append, List.cons_append]
  · refine ⟨a.toList ++ separator.toList ++ ds, d, ?_, hd⟩
    rw [String.toList_append, String.toList_append, hds, List.append_assoc, List.append_assoc,
      List.append_assoc]

theorem trimSeparators_cases (s : String) :
    Name.trimSeparators s = "" ∨ IsTight (Name.trimSeparators s) := by
  by_cases h : Name.trimSeparators s = ""
  · exact Or.inl h
  · exact Or.inr (isTight_trimSeparators h)

/-! ### Full names -/

/-- The text is a full name: it starts with a character that is no separator. -/
structure IsFull (s : String) : Prop where
  /-- The text is not empty. -/
  ne_empty : s ≠ ""
  /-- The first character is no separator. -/
  first : ∀ c ∈ s.toList.head?, isSeparator c = false

theorem IsTight.isFull {s : String} (h : IsTight s) : IsFull s := by
  refine ⟨h.ne_empty, fun c hc => ?_⟩
  obtain ⟨d, cs, hs, hd⟩ := h.first
  rw [hs, List.head?_cons, Option.mem_some_iff] at hc
  rw [← hc, hd]

theorem isFull_trimLeading {s : String} (h : trimLeading s ≠ "") : IsFull (trimLeading s) := by
  refine ⟨h, fun c hc => ?_⟩
  rw [trimLeading, toList_trimStart] at hc
  obtain ⟨cs, hcs⟩ := List.head?_eq_some_iff.mp hc
  have hne : s.toList.dropWhile isSeparator ≠ [] := by
    rw [hcs]
    exact List.cons_ne_nil c cs
  have hhead := List.head_dropWhile_not isSeparator hne
  simpa only [hcs, List.head_cons] using hhead

/-- A full name has no leading separators. -/
theorem IsFull.trimLeading {s : String} (h : IsFull s) : trimLeading s = s := by
  obtain ⟨c, cs, hcs⟩ :=
    List.exists_cons_of_ne_nil fun hnil => h.ne_empty (String.toList_eq_nil_iff.mp hnil)
  exact trimLeading_eq_self ⟨c, cs, hcs, h.first c (by rw [hcs]; rfl)⟩

/-- What follows a full name does not matter. -/
theorem IsFull.append {s : String} (h : IsFull s) (t : String) : IsFull (s ++ t) := by
  have hne : s.toList ≠ [] := fun hnil => h.ne_empty (String.toList_eq_nil_iff.mp hnil)
  constructor
  · intro hempty
    rw [← String.toList_eq_nil_iff, String.toList_append, List.append_eq_nil_iff] at hempty
    exact hne hempty.1
  · rw [String.toList_append, List.head?_append_of_ne_nil _ hne]
    exact h.first

/-- A name inside a namespace is full if it or the namespace is. -/
theorem IsFull.qualify {name space : String} (h : IsFull name)
    (hspace : space = "" ∨ IsFull space) : IsFull (qualify name space) := by
  rcases hspace with rfl | hspace
  · rw [qualify_global]
    exact h
  · rw [qualify_of_ne name hspace.ne_empty]
    exact (hspace.append _).append _

/-! ### The last segment -/

/-- A text without separators is its own last segment. -/
theorem lastSegment_eq_self {s : String} (h : s.toList.any isSeparator = false) :
    lastSegment s = s := by
  have hall : ∀ c ∈ s.toList.reverse, (!isSeparator c) = true := by
    intro c hc
    rw [List.any_eq_false] at h
    simp [h c (List.mem_reverse.mp hc)]
  rw [← String.toList_inj, lastSegment, String.toList_ofList, List.takeWhile_eq_self_iff.mpr hall,
    List.reverse_reverse]

/-- What stands before a separator is not in the last segment. -/
theorem lastSegment_join (a b : String) :
    lastSegment (a ++ (separator ++ b)) = lastSegment b := by
  rw [← String.toList_inj, lastSegment, lastSegment, String.toList_ofList, String.toList_ofList,
    String.toList_append, String.toList_append, toList_separator, List.reverse_append,
    List.reverse_append, List.reverse_singleton, List.append_assoc, List.singleton_append,
    List.takeWhile_append]
  split
  · next hlen =>
    -- the text after the separator holds none, and the separator ends the run
    rw [List.takeWhile_cons_of_neg (by simp [isSeparator]), List.append_nil]
    have hpre := List.takeWhile_prefix (l := b.toList.reverse) (fun c => !isSeparator c)
    rw [hpre.eq_of_length hlen]
  · rfl

/-! ### Resolution -/

/-- A name with substance is more than the separators that start it. -/
theorem trimLeading_ne_empty {name : String} (h : hasSubstance name = true) :
    trimLeading name ≠ "" := by
  intro hempty
  rw [← String.toList_eq_nil_iff, trimLeading, toList_trimStart,
    List.dropWhile_eq_nil_iff] at hempty
  rw [hasSubstance, List.any_eq_true] at h
  obtain ⟨c, hc, hsep⟩ := h
  rw [hempty c hc] at hsep
  exact Bool.false_ne_true hsep

/-- Whatever a file imports, a name with substance stands for some full name. -/
theorem resolve_isSome (imports : ImportTable) (space : String) {name : String}
    (h : hasSubstance name = true) : (resolve imports space name).isSome = true := by
  rw [resolve, if_neg (trimLeading_ne_empty h)]
  split
  · rfl
  · split <;> rfl

/-- **A name that is resolved stands for a full name,** where imports stand for tight names and
the namespace is the global one or full. -/
theorem isFull_resolve {imports : ImportTable} (himports : ∀ e ∈ imports, IsTight e.2)
    {space : String} (hspace : space = "" ∨ IsFull space) {raw full : String}
    (h : resolve imports space raw = some full) : IsFull full := by
  rw [resolve] at h
  by_cases hempty : trimLeading raw = ""
  · rw [if_pos hempty] at h
    exact absurd h.symm (Option.some_ne_none full)
  rw [if_neg hempty] at h
  by_cases hraw : trimLeading raw = raw
  · rw [if_neg (not_not.mpr hraw)] at h
    split at h
    · next target _ hfound =>
      have htight : IsTight target := himports _ (Entries.mem_of_find? hfound)
      rw [trimLeading_eq_self htight.first] at h
      exact Option.some.inj h ▸ htight.isFull
    · next target _ hfound =>
      have htight : IsTight target := himports _ (Entries.mem_of_find? hfound)
      rw [htight.trimSeparators] at h
      exact Option.some.inj h ▸ (htight.isFull.append _).append _
    · have hfull : IsFull raw := hraw ▸ isFull_trimLeading hempty
      exact Option.some.inj h ▸ hfull.qualify hspace
  · rw [if_pos hraw] at h
    exact Option.some.inj h ▸ isFull_trimLeading hempty

/-! ### Comparison -/

/-- A text of separators is compared as the empty text. -/
theorem normalize_of_separators {target : String}
    (h : ∀ c ∈ target.toList, isSeparator c = true) : normalize target = "" := by
  have htrim : trimLeading target = "" := by
    rw [← String.toList_eq_nil_iff, trimLeading, toList_trimStart, List.dropWhile_eq_nil_iff]
    exact h
  rw [normalize, htrim]
  rfl

theorem lowerChar_ne_nil (c : Char) : lowerChar c ≠ [] := by
  rw [lowerChar]
  split
  · exact List.cons_ne_nil _ _
  · split <;> exact List.cons_ne_nil _ _

/-- Lower-casing takes no character away. -/
theorem lower_ne_empty {s : String} (h : s ≠ "") : lower s ≠ "" := by
  rw [Ne, ← String.toList_eq_nil_iff, toList_lower]
  obtain ⟨c, cs, hcs⟩ := List.exists_cons_of_ne_nil fun hnil => h (String.toList_eq_nil_iff.mp hnil)
  rw [hcs, lowerChars_cons, List.append_eq_nil_iff]
  rintro ⟨hnil, -⟩
  split at hnil
  · exact List.cons_ne_nil _ _ hnil
  · exact lowerChar_ne_nil c hnil

/-- A full name is not compared as the empty text. -/
theorem IsFull.normalize_ne {name : String} (h : IsFull name) : normalize name ≠ "" := by
  rw [normalize, h.trimLeading]
  exact lower_ne_empty h.ne_empty

end Name
end ClassLineage
