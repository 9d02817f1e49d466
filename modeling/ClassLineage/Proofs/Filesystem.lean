import ClassLineage.Filesystem
import Mathlib.Data.String.Basic

/-!
# The order of a listing

Listed texts stand in the order of their characters, however they were found.

## Main results

* `pairwise_sortPaths`, `sortPaths_eq_of_pairwise` — a listing is in order, and what is in order is
  the listing of it.
* `sortPaths_eq_of_perm` — **a listing does not depend on the order in which its paths are found.**
* `sortPaths_map` — what keeps the order may be done before or after.
-/

namespace ClassLineage

theorem pairwise_sortPaths (paths : List String) : (sortPaths paths).Pairwise (· ≤ ·) := by
  have hsorted := @List.pairwise_mergeSort String (fun a b => a ≤ b)
    (fun a b c hab hbc => decide_eq_true (String.le_trans (of_decide_eq_true hab)
      (of_decide_eq_true hbc)))
    (fun a b => by simpa using String.le_total a b) paths
  exact hsorted.imp fun h => of_decide_eq_true h

/-- Texts in order are the listing of any others that are the same ones. -/
theorem sortPaths_eq_of_pairwise {paths sorted : List String} (h : paths.Perm sorted)
    (hsorted : sorted.Pairwise (· ≤ ·)) : sortPaths paths = sorted := by
  apply List.Perm.eq_of_pairwise (fun _ _ _ _ => String.le_antisymm) (pairwise_sortPaths paths)
    hsorted
  exact (List.mergeSort_perm _ _).trans h

/-- **A listing does not depend on the order in which the paths are found.** -/
theorem sortPaths_eq_of_perm {paths paths' : List String} (h : paths.Perm paths') :
    sortPaths paths = sortPaths paths' :=
  sortPaths_eq_of_pairwise (h.trans (List.mergeSort_perm _ _).symm) (pairwise_sortPaths paths')

/-- What keeps the order may be done before or after. -/
theorem sortPaths_map {f : String → String} (h : ∀ a b, f a ≤ f b ↔ a ≤ b) (paths : List String) :
    sortPaths (paths.map f) = (sortPaths paths).map f := by
  rw [sortPaths, sortPaths, List.map_mergeSort]
  intro a _ b _
  simp only [h]

theorem append_le_append_iff (before a b : String) : before ++ a ≤ before ++ b ↔ a ≤ b := by
  rw [← not_lt, ← not_lt, String.lt_iff_toList_lt, String.lt_iff_toList_lt, String.toList_append,
    String.toList_append]
  induction before.toList with
  | nil => rfl
  | cons c cs ih =>
    rw [List.cons_append, List.cons_append, List.cons_lt_cons_iff]
    simpa using ih

end ClassLineage
