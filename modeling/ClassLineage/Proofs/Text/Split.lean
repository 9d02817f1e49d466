import ClassLineage.Text.Split

/-!
# The pieces of a text

Splitting undoes joining: texts without separators that are joined by one are the pieces
again.

## Main results

* `splitChars_append` — a piece ends at the first separator.
* `all_of_mem_splitAll` — no piece holds a separator.
* `splitAll_intercalate` — **the pieces of joined texts are these texts.**
-/

namespace ClassLineage
namespace Text

variable {p : Char → Bool}

/-- Characters without a separator are one piece. -/
theorem splitChars_of_all {cs : List Char} (h : ∀ c ∈ cs, p c = false) :
    splitChars p cs = [cs] := by
  induction cs with
  | nil => rfl
  | cons c cs ih =>
    rw [splitChars, h c List.mem_cons_self, ih fun d hd => h d (List.mem_cons_of_mem _ hd)]

/-- A piece ends at the first separator. -/
theorem splitChars_append {cs : List Char} (h : ∀ c ∈ cs, p c = false) {c : Char}
    (hc : p c = true) (rest : List Char) :
    splitChars p (cs ++ c :: rest) = cs :: splitChars p rest := by
  induction cs with
  | nil => rw [List.nil_append, splitChars, hc]
  | cons d cs ih =>
    rw [List.cons_append, splitChars, h d List.mem_cons_self,
      ih fun e he => h e (List.mem_cons_of_mem _ he)]

/-- No piece holds a separator. -/
theorem all_of_mem_splitChars {cs piece : List Char} (h : piece ∈ splitChars p cs) :
    ∀ c ∈ piece, p c = false := by
  induction cs generalizing piece with
  | nil =>
    rw [splitChars, List.mem_singleton] at h
    intro c hc
    exact absurd (h ▸ hc) List.not_mem_nil
  | cons d cs ih =>
    rw [splitChars] at h
    split at h
    · rcases List.mem_cons.mp h with rfl | h
      · intro c hc
        exact absurd hc List.not_mem_nil
      · exact ih h
    · next first pieces hd hs =>
      rcases List.mem_cons.mp h with rfl | h
      · intro c hc
        rcases List.mem_cons.mp hc with rfl | hc
        · exact hd
        · exact ih (hs ▸ List.mem_cons_self) c hc
      · exact ih (hs ▸ List.mem_cons_of_mem _ h)
    · next hs => exact absurd hs (splitChars_ne_nil p cs)

theorem all_of_mem_splitAll {s piece : String} (h : piece ∈ splitAll p s) :
    ∀ c ∈ piece.toList, p c = false := by
  obtain ⟨cs, hcs, rfl⟩ := List.mem_map.mp h
  rw [String.toList_ofList]
  exact all_of_mem_splitChars hcs

/-- A piece holds nothing that the whole does not hold. -/
theorem subset_of_mem_splitChars {cs piece : List Char} (h : piece ∈ splitChars p cs) :
    piece ⊆ cs := by
  induction cs generalizing piece with
  | nil =>
    rw [splitChars, List.mem_singleton] at h
    exact h ▸ List.Subset.refl _
  | cons d cs ih =>
    rw [splitChars] at h
    split at h
    · rcases List.mem_cons.mp h with rfl | h
      · exact List.nil_subset _
      · exact List.subset_cons_of_subset d (ih h)
    · next first pieces hd hs =>
      rcases List.mem_cons.mp h with rfl | h
      · exact List.cons_subset_cons d (ih (hs ▸ List.mem_cons_self))
      · exact List.subset_cons_of_subset d (ih (hs ▸ List.mem_cons_of_mem _ h))
    · next hs => exact absurd hs (splitChars_ne_nil p cs)

theorem subset_of_mem_splitAll {s piece : String} (h : piece ∈ splitAll p s) :
    piece.toList ⊆ s.toList := by
  obtain ⟨cs, hcs, rfl⟩ := List.mem_map.mp h
  rw [String.toList_ofList]
  exact subset_of_mem_splitChars hcs

/-- **The pieces of joined texts are these texts.** -/
theorem splitAll_intercalate {separator : String} {c : Char} (hsep : separator.toList = [c])
    (hc : p c = true) {parts : List String} (hne : parts ≠ [])
    (h : ∀ part ∈ parts, ∀ d ∈ part.toList, p d = false) :
    splitAll p (separator.intercalate parts) = parts := by
  rw [splitAll, String.toList_intercalate, hsep]
  induction parts with
  | nil => exact absurd rfl hne
  | cons part parts ih =>
    have hpart := h part List.mem_cons_self
    cases parts with
    | nil =>
      rw [List.map_cons, List.map_nil, List.intercalate_singleton, splitChars_of_all hpart,
        List.map_cons, List.map_nil, String.ofList_toList]
    | cons other parts =>
      -- the first piece ends at the separator after it, and the rest is joined again
      have ih' := ih (List.cons_ne_nil _ _) fun q hq => h q (List.mem_cons_of_mem _ hq)
      rw [List.map_cons] at ih' ⊢
      rw [List.map_cons, List.intercalate_cons_cons, List.append_assoc, List.singleton_append,
        splitChars_append hpart hc, List.map_cons, String.ofList_toList, ih']

end Text
end ClassLineage
