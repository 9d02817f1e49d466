import ClassLineage.Text.Trim
import Mathlib.Data.List.Basic

/-!
# Trimmed texts

A text is trimmed if nothing is to be taken away at its ends.  Trimming gives such a text, and
gives it back from any text that pads it.

## Main definitions

* `IsTrimmed` — neither end of a text is of a kind of characters.

## Main results

* `isTrimmed_trimBoth` — a text is trimmed after trimming.
* `IsTrimmed.trimBoth_pad` — **a trimmed text is what is left of any text that pads it.**
-/

namespace ClassLineage
namespace Text

variable {p : Char → Bool} {s : String}

/-- The text neither starts nor ends with a character satisfying `p`. -/
structure IsTrimmed (p : Char → Bool) (s : String) : Prop where
  /-- The first character does not satisfy `p`. -/
  first : ∀ c ∈ s.toList.head?, p c = false
  /-- The last character does not satisfy `p`. -/
  last : ∀ c ∈ s.toList.getLast?, p c = false

instance (p : Char → Bool) (s : String) : Decidable (IsTrimmed p s) :=
  decidable_of_iff (s.toList.head?.any p = false ∧ s.toList.getLast?.any p = false)
    ⟨fun h => ⟨Option.any_eq_false _ _ |>.mp h.1, Option.any_eq_false _ _ |>.mp h.2⟩,
      fun h => ⟨Option.any_eq_false _ _ |>.mpr h.first, Option.any_eq_false _ _ |>.mpr h.last⟩⟩

/-- A text in which no character satisfies `p` is trimmed. -/
theorem IsTrimmed.of_all (h : ∀ c ∈ s.toList, p c = false) : IsTrimmed p s :=
  ⟨fun c hc => h c (List.mem_of_mem_head? hc), fun c hc => h c (List.mem_of_getLast? hc)⟩

theorem toList_trimBoth (p : Char → Bool) (s : String) :
    (trimBoth p s).toList = ((s.toList.dropWhile p).reverse.dropWhile p).reverse := by
  rw [trimBoth, toList_trimEnd, toList_trimStart]

/-- A run is dropped up to a character that does not belong to it. -/
theorem dropWhile_run_append {run cs : List Char} (hrun : ∀ c ∈ run, p c = true)
    (hcs : ∀ c ∈ cs.head?, p c = false) : (run ++ cs).dropWhile p = cs := by
  rw [List.dropWhile_append_of_pos hrun]
  cases cs with
  | nil => rfl
  | cons c cs => rw [List.dropWhile_cons_of_neg (by simp [hcs c rfl])]

/-- What is left of a run that is dropped does not start with one of its characters. -/
theorem head?_dropWhile (p : Char → Bool) (cs : List Char) :
    ∀ c ∈ (cs.dropWhile p).head?, p c = false := by
  intro c hc
  have hnot := List.head?_dropWhile_not p cs
  rw [Option.mem_def.mp hc] at hnot
  simpa using hnot

/-- **A text is trimmed after trimming.** -/
theorem isTrimmed_trimBoth (p : Char → Bool) (s : String) : IsTrimmed p (trimBoth p s) := by
  constructor
  · -- what is trimmed at the end leaves the first character as it is
    intro c hc
    have hprefix : (trimBoth p s).toList <+: s.toList.dropWhile p := by
      rw [toList_trimBoth, ← List.reverse_suffix, List.reverse_reverse]
      exact List.dropWhile_suffix p
    obtain ⟨rest, hrest⟩ := hprefix
    apply head?_dropWhile p s.toList c
    rw [← hrest, List.head?_append, Option.mem_def.mp hc]
    rfl
  · intro c hc
    rw [toList_trimBoth, List.getLast?_reverse] at hc
    exact head?_dropWhile p _ c hc

/-- **A trimmed text is what is left of any text that pads it.** -/
theorem IsTrimmed.trimBoth_pad (h : IsTrimmed p s) (hne : s ≠ "") {before after : String}
    (hbefore : ∀ c ∈ before.toList, p c = true) (hafter : ∀ c ∈ after.toList, p c = true) :
    trimBoth p (before ++ s ++ after) = s := by
  have hnil : s.toList ≠ [] := fun hs => hne (String.toList_eq_nil_iff.mp hs)
  have hstart : (before ++ s ++ after).toList.dropWhile p = s.toList ++ after.toList := by
    rw [String.toList_append, String.toList_append, List.append_assoc]
    apply dropWhile_run_append hbefore
    rw [List.head?_append_of_ne_nil _ hnil]
    exact h.first
  have hend : (s.toList ++ after.toList).reverse.dropWhile p = s.toList.reverse := by
    rw [List.reverse_append]
    apply dropWhile_run_append fun c hc => hafter c (List.mem_reverse.mp hc)
    rw [List.head?_reverse]
    exact h.last
  rw [← String.toList_inj, toList_trimBoth, hstart, hend, List.reverse_reverse]

/-- Nothing is taken away from a trimmed text. -/
theorem IsTrimmed.trimBoth_eq (h : IsTrimmed p s) : trimBoth p s = s := by
  by_cases hne : s = ""
  · rw [← String.toList_inj, toList_trimBoth, hne]
    rfl
  · have hpad : trimBoth p ("" ++ s ++ "") = s := h.trimBoth_pad hne (by simp) (by simp)
    rwa [String.empty_append, String.append_empty] at hpad

/-- Trimming leaves only characters that were there. -/
theorem trimBoth_subset (p : Char → Bool) (s : String) : (trimBoth p s).toList ⊆ s.toList := by
  intro c hc
  rw [toList_trimBoth, List.mem_reverse] at hc
  exact List.dropWhile_subset p (List.mem_reverse.mp (List.dropWhile_subset p hc))

end Text
end ClassLineage
