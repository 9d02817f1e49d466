import ClassLineage.Proofs.Name
import ClassLineage.Proofs.Text.Lower
import ClassLineage.Proofs.Text.Stable

/-!
# Names in normal form

A separator cuts words, and no other character has it as a lower-case form.  So taking leading
separators away and lower-casing can be done in either order, and names of one lower-case form
have one normal form.

## Main results

* `Name.cutsWords_separator` — a separator cuts words.
* `Name.isSeparator_of_mem_lowerChar` — no other character becomes a separator.
* `Name.trimLeading_lower` — **the normal form of a name is its lower-case form without leading
  separators.**
* `Name.normalize_eq_of_lower_eq` — names of one lower-case form have one normal form.
* `Name.normalize_normalize` — a name in normal form stays as it is.
* `Name.normalize_qualify` — **a name and its namespace are put into normal form each for itself.**
-/

namespace ClassLineage
namespace Name

open Text

theorem cutsWords_separator : CutsWords '\\' := by
  constructor <;> decide +kernel

theorem ne_separator_ofNat {n : Nat} (h : '\\'.toNat < n) : Char.ofNat n ≠ '\\' := by
  intro hsep
  by_cases hvalid : n.isValidChar
  · rw [Char.ofNat, dif_pos hvalid] at hsep
    have hcode : n = '\\'.toNat := congrArg Char.toNat hsep
    omega
  · rw [Char.ofNat, dif_neg hvalid] at hsep
    exact absurd hsep (by decide)

/-- **No other character has a separator as its lower-case form.** -/
theorem isSeparator_of_mem_lowerChar {c d : Char} (hc : isSeparator c = false)
    (hd : d ∈ lowerChar c) : isSeparator d = false := by
  -- all runs of lower-case forms begin above the separator
  have htargets : ∀ r ∈ caseRuns, '\\'.toNat < r.target := by decide +kernel
  unfold lowerChar at hd
  split_ifs at hd with hdotted
  · simp only [List.mem_cons, List.not_mem_nil, or_false] at hd
    rcases hd with rfl | rfl <;> rfl
  · cases hcode : lowerCode? c.toNat with
    | none =>
      simp only [hcode, List.mem_singleton] at hd
      exact hd ▸ hc
    | some n =>
      simp only [hcode, List.mem_singleton] at hd
      subst hd
      obtain ⟨r, hr, hn⟩ := List.exists_of_findSome?_eq_some hcode
      have hlt := htargets r hr
      unfold CaseRun.lower? at hn
      split_ifs at hn
      rw [Option.some.injEq] at hn
      exact beq_eq_false_iff_ne.mpr (ne_separator_ofNat (by omega))

/-- Lower-casing a text that starts with a segment gives one that does. -/
theorem dropWhile_lowerChars {c : Char} (hc : isSeparator c = false) (before cs : List Char) :
    (lowerChars before (c :: cs)).dropWhile isSeparator = lowerChars before (c :: cs) := by
  rw [lowerChars_cons]
  split_ifs with hsigma hends
  · rw [List.singleton_append, List.dropWhile_cons_of_neg (by decide)]
  · rw [List.singleton_append, List.dropWhile_cons_of_neg (by decide)]
  · obtain ⟨d, ds, hds⟩ := List.exists_cons_of_ne_nil (lowerChar_ne_nil c)
    have hd : isSeparator d = false :=
      isSeparator_of_mem_lowerChar hc (hds ▸ List.mem_cons_self)
    rw [hds, List.cons_append, List.dropWhile_cons_of_neg (by simp [hd])]

/-- **The normal form of a name is its lower-case form without leading separators.** -/
theorem trimLeading_lower (name : String) : trimLeading (lower name) = normalize name := by
  rw [← String.toList_inj, normalize, trimLeading, trimLeading, toList_trimStart, toList_lower,
    toList_lower, toList_trimStart]
  induction name.toList with
  | nil => rfl
  | cons c cs ih =>
    cases hc : isSeparator c with
    | true =>
      obtain rfl : c = '\\' := beq_iff_eq.mp hc
      rw [lowerChars_cons_of_cutsWords cutsWords_separator, List.dropWhile_cons_of_pos hc,
        List.dropWhile_cons_of_pos hc, ih]
    | false => rw [dropWhile_lowerChars hc, List.dropWhile_cons_of_neg (by simp [hc])]

/-- Names of one lower-case form have one normal form. -/
theorem normalize_eq_of_lower_eq {a b : String} (h : lower a = lower b) :
    normalize a = normalize b := by
  rw [← trimLeading_lower, ← trimLeading_lower, h]

theorem trimLeading_trimLeading (name : String) :
    trimLeading (trimLeading name) = trimLeading name := by
  by_cases h : trimLeading name = ""
  · rw [h]
    rfl
  · exact (isFull_trimLeading h).trimLeading

/-- A name in normal form stays as it is. -/
theorem normalize_normalize (name : String) : normalize (normalize name) = normalize name := by
  have htrim : trimLeading (normalize name) = normalize name := by
    rw [← trimLeading_lower, trimLeading_trimLeading]
  calc normalize (normalize name)
    _ = lower (normalize name) := by rw [normalize, htrim]
    _ = lower (lower (trimLeading name)) := rfl
    _ = normalize name := by rw [lower_lower, normalize]

/-- A separator divides a text into parts that are lower-cased each for itself. -/
theorem lower_append_separator (space name : String) :
    lower (space ++ separator ++ name) = lower space ++ separator ++ lower name := by
  have hchars : (space ++ separator ++ name).toList = space.toList ++ '\\' :: name.toList := by
    simp [toList_separator]
  rw [← String.toList_inj, toList_lower, hchars, lowerChars_append_cutsWords cutsWords_separator]
  simp [toList_separator]

/-- **A name and its namespace are put into normal form each for itself,** if neither of them has
leading separators. -/
theorem normalize_qualify {name space : String} (hname : trimLeading name = name)
    (hspace : trimLeading space = space) :
    normalize (qualify name space) = qualify (normalize name) (normalize space) := by
  by_cases hglobal : space = ""
  · subst hglobal
    rfl
  · have hnormal : normalize space ≠ "" := by
      rw [normalize, hspace]
      exact lower_ne_empty hglobal
    have htrim : trimLeading (space ++ separator ++ name) = space ++ separator ++ name := by
      have hfull : IsFull space := by
        rw [← hspace] at hglobal ⊢
        exact isFull_trimLeading hglobal
      exact ((hfull.append _).append _).trimLeading
    rw [qualify_of_ne _ hglobal, qualify_of_ne _ hnormal, normalize, htrim, lower_append_separator,
      normalize, normalize, hspace, hname]

end Name
end ClassLineage
