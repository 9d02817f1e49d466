import ClassLineage.Proofs.Entries

/-!
# First members

Of the members of a list that have the same key, the first one counts.  Entries that are set
unless they are there are the first ones of their keys.

## Main definitions

* `firstsBy` — the members of a list that are the first ones of their keys.

## Main results

* `firstsBy_cons`, `firstsBy_append` — what stands in front takes its keys from what follows.
* `firstsBy_filter`, `firstsBy_map` — members may be chosen by their keys, or changed, before or
  after.
* `Entries.putNewAll_eq` — **entries that are set unless they are there are the first ones.**
-/

namespace ClassLineage

section Firsts

variable {α β γ : Type} [DecidableEq β] [DecidableEq γ] {key : α → β} {l more : List α}

/-- The members of a list that are the first ones of their keys, in order. -/
def firstsBy (key : α → β) (l : List α) : List α := l.eraseDupsBy fun a b => key a = key b

@[simp] theorem firstsBy_nil (key : α → β) : firstsBy key [] = [] := rfl

theorem firstsBy_cons_filter (key : α → β) (a : α) (l : List α) :
    firstsBy key (a :: l) = a :: firstsBy key (l.filter fun b => key b ≠ key a) := by
  unfold firstsBy
  rw [List.eraseDupsBy_cons]
  simp

/-- Members may be chosen by their keys before or after. -/
theorem firstsBy_filter (key : α → β) (p : β → Bool) (l : List α) :
    firstsBy key (l.filter fun a => p (key a)) = (firstsBy key l).filter fun a => p (key a) := by
  induction hlen : l.length using Nat.strongRecOn generalizing l with
  | _ n ih =>
    cases l with
    | nil => rfl
    | cons a l =>
      have hshort : (l.filter fun b => key b ≠ key a).length < n := by
        have := List.length_filter_le (fun b => decide (key b ≠ key a)) l
        simp only [List.length_cons] at hlen
        omega
      have hrest := ih _ hshort (l.filter fun b => key b ≠ key a) rfl
      rw [firstsBy_cons_filter, List.filter_cons, List.filter_cons, ← hrest]
      by_cases ha : p (key a) = true
      · rw [if_pos ha, if_pos ha, firstsBy_cons_filter, List.filter_comm]
      · rw [if_neg ha, if_neg ha, List.filter_filter]
        -- what is chosen has other keys than what is not
        congr 1
        apply List.filter_congr
        intro b _
        by_cases hb : key b = key a <;> simp [hb, ha]

/-- The first member of a list takes its key from those that follow. -/
theorem firstsBy_cons (key : α → β) (a : α) (l : List α) :
    firstsBy key (a :: l) = a :: (firstsBy key l).filter fun b => key b ≠ key a := by
  rw [firstsBy_cons_filter, firstsBy_filter key (fun k => decide (k ≠ key a))]

/-- What stands in front takes its keys from what follows. -/
theorem firstsBy_append (key : α → β) (l more : List α) :
    firstsBy key (l ++ more)
      = firstsBy key l ++ (firstsBy key more).filter fun b => !(l.map key).contains (key b) := by
  induction l with
  | nil => simp
  | cons a l ih =>
    rw [List.cons_append, firstsBy_cons, ih, firstsBy_cons, List.filter_append, List.filter_filter,
      List.cons_append]
    simp

/-- A last member is a first one if its key is new. -/
theorem firstsBy_concat (key : α → β) (l : List α) (a : α) :
    firstsBy key (l ++ [a])
      = if key a ∈ l.map key then firstsBy key l else firstsBy key l ++ [a] := by
  rw [firstsBy_append, firstsBy_cons, firstsBy_nil, List.filter_nil, List.filter_cons]
  by_cases ha : key a ∈ l.map key
  · rw [if_neg (by simpa using ha), if_pos ha, List.filter_nil, List.append_nil]
  · rw [if_pos (by simpa using ha), if_neg ha, List.filter_nil]

theorem firstsBy_subset : firstsBy key l ⊆ l := by
  induction l with
  | nil => simp
  | cons a l ih =>
    rw [firstsBy_cons]
    apply List.cons_subset_cons
    exact List.Subset.trans List.filter_sublist.subset ih

/-- Every key is that of a first member. -/
theorem mem_map_firstsBy (key : α → β) (l : List α) {k : β} :
    k ∈ (firstsBy key l).map key ↔ k ∈ l.map key := by
  induction l with
  | nil => rfl
  | cons a l ih =>
    rw [firstsBy_cons, List.map_cons, List.map_cons, List.mem_cons, List.mem_cons, ← ih]
    by_cases hk : k = key a
    · simp [hk]
    · simp only [hk, false_or, List.mem_map, List.mem_filter, decide_eq_true_eq]
      constructor
      · rintro ⟨b, ⟨hb, -⟩, rfl⟩
        exact ⟨b, hb, rfl⟩
      · rintro ⟨b, hb, rfl⟩
        exact ⟨b, ⟨hb, hk⟩, rfl⟩

/-- A list that is read twice has the same first members. -/
theorem firstsBy_append_self (key : α → β) (l : List α) : firstsBy key (l ++ l) = firstsBy key l := by
  rw [firstsBy_append, List.filter_eq_nil_iff.mpr, List.append_nil]
  intro a ha
  simpa using ⟨a, firstsBy_subset ha, rfl⟩

/-- Members may be changed before or after, if their keys are told apart. -/
theorem firstsBy_map {δ : Type} (key : α → β) (f : δ → α) {key' : δ → γ}
    (h : ∀ a b, key (f a) = key (f b) ↔ key' a = key' b) (l : List δ) :
    firstsBy key (l.map f) = (firstsBy key' l).map f := by
  induction l with
  | nil => rfl
  | cons a l ih =>
    rw [List.map_cons, firstsBy_cons, ih, firstsBy_cons, List.map_cons, List.filter_map]
    simp [Function.comp_def, h]

end Firsts

namespace Entries

variable {α : Type}

/-- **Entries that are set unless they are there are the first ones of their keys,** after those
that are there. -/
theorem putNewAll_eq (more entries : Entries α) :
    putNewAll more entries
      = entries ++ (firstsBy Prod.fst more).filter fun e => !(keys entries).contains e.1 := by
  induction more generalizing entries with
  | nil => simp [putNewAll]
  | cons e more ih =>
    rw [putNewAll_cons, ih, firstsBy_cons, putNew]
    split
    · next hmem =>
      rw [isSome_find?_iff] at hmem
      rw [List.filter_cons_of_neg (by simpa using hmem), List.filter_filter]
      congr 1
      apply List.filter_congr
      intro e' _
      by_cases he : e'.1 = e.1 <;> simp [he, hmem]
    · next hnew =>
      rw [isSome_find?_iff] at hnew
      have hkeys : keys (entries ++ [(e.1, e.2)]) = keys entries ++ [e.1] := List.map_append
      rw [List.filter_cons_of_pos (by simpa using hnew), List.filter_filter, List.append_assoc,
        List.singleton_append, hkeys]
      congr 2
      apply List.filter_congr
      intro e' _
      by_cases he : e'.1 = e.1 <;> simp [he]

end Entries
end ClassLineage
