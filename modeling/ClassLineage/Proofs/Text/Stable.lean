import ClassLineage.Text.Lower
import Mathlib.Tactic.SplitIfs

/-!
# Texts in lower case

Lower-casing leaves nothing to lower-case.  This is a property of the tables: the lower-case form
of a character has no other lower-case form.  Of the runs of the tables, which are compared two by
two, the lower-case forms of the one lie below or above the other, or each between two of its
characters.  What follows a sigma does not matter then, for no capital sigma is left.

## Main definitions

* `CaseRun.isApart` — no lower-case form of a run has another one by a second run.
* `IsStable` — a character that is its own lower-case form.

## Main results

* `CaseRun.lower?_of_isApart`, `isApart_caseRuns` — what the comparison of two runs says, and that
  all runs of the tables pass it.
* `isStable_of_mem_lowerChars` — lower-casing leaves stable characters.
* `lower_lower` — **a text in lower case stays as it is.**
-/

namespace ClassLineage
namespace Text

/-! ### Runs -/

/-- No lower-case form of the run has another one by `q`: they lie below `q` or above it, or the
characters of both alternate and theirs lie between those of `q`.  It is the comparison of naturals
as Booleans that makes all pairs quick to check. -/
def CaseRun.isApart (r q : CaseRun) : Bool :=
  Nat.blt (r.target + (r.last - r.first)) q.first || Nat.blt q.last r.target
    || ((r.step == 2 || r.first == r.last) && q.step == 2 && (r.target + q.first) % 2 == 1)

theorem CaseRun.lower?_eq_some_iff {r : CaseRun} {n m : Nat} :
    r.lower? n = some m ↔ (r.first ≤ n ∧ n ≤ r.last ∧ (n - r.first) % r.step = 0)
      ∧ r.target + (n - r.first) = m := by
  rw [CaseRun.lower?]
  have hbool : (r.first ≤ n && n ≤ r.last && (n - r.first) % r.step == 0) = true
      ↔ r.first ≤ n ∧ n ≤ r.last ∧ (n - r.first) % r.step = 0 := by
    simp [and_assoc]
  by_cases h : r.first ≤ n ∧ n ≤ r.last ∧ (n - r.first) % r.step = 0
  · rw [if_pos (hbool.mpr h), Option.some.injEq, and_iff_right h]
  · rw [if_neg (mt hbool.mp h)]
    simp [h]

/-- What the comparison says. -/
theorem CaseRun.lower?_of_isApart {r q : CaseRun} (h : r.isApart q = true) {n m : Nat}
    (hn : r.lower? n = some m) : q.lower? m = none := by
  rw [Option.eq_none_iff_forall_ne_some]
  intro k hk
  obtain ⟨⟨hfirst, hlast, hstep⟩, rfl⟩ := lower?_eq_some_iff.mp hn
  obtain ⟨⟨hfirst', hlast', hstep'⟩, -⟩ := lower?_eq_some_iff.mp hk
  simp only [isApart, Bool.or_eq_true, Bool.and_eq_true, Nat.blt_eq, beq_iff_eq] at h
  rcases h with (habove | hbelow) | ⟨⟨hform, hstep2⟩, hodd⟩
  · omega
  · omega
  · -- the form has the parity of the first one, which is not that of the characters of `q`
    rw [hstep2] at hstep'
    have heven : (n - r.first) % 2 = 0 := by
      rcases hform with hstep2 | hsingle
      · rwa [hstep2] at hstep
      · omega
    omega

/-- The run of the dotted capital alone, whose lower-case form is of two characters. -/
def dottedRun : CaseRun := ⟨0x130, 0x130, 1, 0x69⟩

/-- **All runs of the tables are apart,** and none gives the dotted capital. -/
theorem isApart_caseRuns :
    (caseRuns.all fun r => (dottedRun :: caseRuns).all fun q => r.isApart q) = true := by
  decide +kernel

/-! ### Characters -/

/-- The character is its own lower-case form. -/
def IsStable (c : Char) : Prop := lowerChar c = [c]

instance : DecidablePred IsStable := fun c => inferInstanceAs (Decidable (lowerChar c = [c]))

theorem IsStable.ne_sigma {c : Char} (h : IsStable c) : c ≠ 'Σ' := by
  rintro rfl
  exact absurd h (by decide +kernel)

/-- The lower-case form of a code point has no other one. -/
theorem lowerCode?_of_eq_some {n m : Nat} (h : lowerCode? n = some m) :
    lowerCode? m = none ∧ m ≠ 'İ'.toNat := by
  obtain ⟨r, hr, hn⟩ := List.exists_of_findSome?_eq_some h
  have hapart := List.all_eq_true.mp (List.all_eq_true.mp isApart_caseRuns r hr)
  constructor
  · rw [lowerCode?, List.findSome?_eq_none_iff]
    intro q hq
    exact CaseRun.lower?_of_isApart (hapart q (List.mem_cons_of_mem _ hq)) hn
  · rintro rfl
    have hdotted := CaseRun.lower?_of_isApart (hapart dottedRun List.mem_cons_self) hn
    exact absurd hdotted (by decide)

/-- A character without a lower-case form by the tables is stable. -/
theorem isStable_of_lowerCode? {c : Char} (h : lowerCode? c.toNat = none) (hc : c ≠ 'İ') :
    IsStable c := by
  simp only [IsStable, lowerChar, if_neg hc, h]

/-- **The lower-case form of a character is of stable characters.** -/
theorem isStable_of_mem_lowerChar {c d : Char} (hd : d ∈ lowerChar c) : IsStable d := by
  unfold lowerChar at hd
  split_ifs at hd with hdotted
  · simp only [List.mem_cons, List.not_mem_nil, or_false] at hd
    rcases hd with rfl | rfl
    · decide +kernel
    · decide +kernel
  · cases hcode : lowerCode? c.toNat with
    | none =>
      simp only [hcode, List.mem_singleton] at hd
      exact hd ▸ isStable_of_lowerCode? hcode hdotted
    | some n =>
      simp only [hcode, List.mem_singleton] at hd
      obtain ⟨hnone, hne⟩ := lowerCode?_of_eq_some hcode
      subst hd
      by_cases hvalid : n.isValidChar
      · have hnat : (Char.ofNat n).toNat = n := by
          rw [Char.ofNat, dif_pos hvalid]
          rfl
        refine isStable_of_lowerCode? (by rwa [hnat]) fun h => hne ?_
        rw [← hnat, h]
      · rw [Char.ofNat, dif_neg hvalid]
        decide +kernel

/-! ### Texts -/

/-- Lower-casing leaves stable characters, a sigma in either of its two forms among them. -/
theorem isStable_of_mem_lowerChars {before cs : List Char} :
    ∀ d ∈ lowerChars before cs, IsStable d := by
  induction cs generalizing before with
  | nil => simp
  | cons c cs ih =>
    intro d hd
    rw [lowerChars_cons, List.mem_append] at hd
    rcases hd with hd | hd
    · split_ifs at hd
      · obtain rfl := List.mem_singleton.mp hd
        decide +kernel
      · obtain rfl := List.mem_singleton.mp hd
        decide +kernel
      · exact isStable_of_mem_lowerChar hd
    · exact ih d hd

/-- Stable characters stay as they are, whatever precedes them. -/
theorem lowerChars_of_isStable {cs : List Char} (h : ∀ c ∈ cs, IsStable c) (before : List Char) :
    lowerChars before cs = cs := by
  induction cs generalizing before with
  | nil => rfl
  | cons c cs ih =>
    have hc : IsStable c := h c List.mem_cons_self
    rw [lowerChars_cons, if_neg hc.ne_sigma, hc, ih fun d hd => h d (List.mem_cons_of_mem _ hd)]
    rfl

/-- **A text in lower case stays as it is.** -/
theorem lower_lower (s : String) : lower (lower s) = lower s := by
  rw [← String.toList_inj, toList_lower, toList_lower]
  exact lowerChars_of_isStable isStable_of_mem_lowerChars []

end Text
end ClassLineage
