import ClassLineage.Proofs.Text.Lower
import Mathlib.Data.List.TakeWhile

/-!
# Texts in another case

Texts that differ in the case of their ASCII letters alone become one when these letters are put
in lower case.  What holds of a character and not of an ASCII letter in one of its cases alone
holds of the character after that, too; so a text and its folded form have one lower-case form,
also where a sigma looks at the letters around it.

## Main definitions

* `Text.foldCase` — a text with its ASCII letters in lower case.

## Main results

* `Text.apply_toLower` — what does not tell the two cases of an ASCII letter apart.
* `Text.lower_foldCase` — **a text and its folded form have one lower-case form.**
-/

namespace ClassLineage
namespace Text

/-- The text with its ASCII letters in lower case. -/
def foldCase (s : String) : String := String.ofList (s.toList.map Char.toLower)

@[simp] theorem toList_foldCase (s : String) :
    (foldCase s).toList = s.toList.map Char.toLower := String.toList_ofList

theorem foldCase_append (a b : String) : foldCase (a ++ b) = foldCase a ++ foldCase b := by
  rw [← String.toList_inj, toList_foldCase, String.toList_append, String.toList_append,
    List.map_append, toList_foldCase, toList_foldCase]

theorem foldCase_ofList (cs : List Char) :
    foldCase (String.ofList cs) = String.ofList (cs.map Char.toLower) := by
  rw [foldCase, String.toList_ofList]

theorem foldCase_join (parts : List String) :
    foldCase (String.join parts) = String.join (parts.map foldCase) := by
  rw [← String.toList_inj, toList_foldCase, String.toList_join, String.toList_join,
    List.map_flatMap, List.flatMap_map]
  exact congrArg (List.flatMap · parts) (funext fun s => (toList_foldCase s).symm)

@[simp] theorem length_toList_foldCase (s : String) :
    (foldCase s).toList.length = s.toList.length := by
  rw [toList_foldCase, List.length_map]

@[simp] theorem foldCase_eq_empty_iff {s : String} : foldCase s = "" ↔ s = "" := by
  rw [← String.toList_eq_nil_iff, toList_foldCase, List.map_eq_nil_iff, String.toList_eq_nil_iff]

/-! ### Runs of what is rewritten -/

section Runs

variable {α : Type} {f : α → α} {p : α → Bool}

theorem dropWhile_map_of_apply (h : ∀ a, p (f a) = p a) (l : List α) :
    (l.map f).dropWhile p = (l.dropWhile p).map f := by
  rw [List.dropWhile_map]
  exact congrArg (fun q => (l.dropWhile q).map f) (funext h)

theorem takeWhile_map_of_apply (h : ∀ a, p (f a) = p a) (l : List α) :
    (l.map f).takeWhile p = (l.takeWhile p).map f := by
  rw [List.takeWhile_map]
  exact congrArg (fun q => (l.takeWhile q).map f) (funext h)

end Runs

/-! ### Characters -/

/-- Each character is left as it is, or it is an ASCII letter in upper case. -/
theorem toLower_cases (c : Char) :
    c.toLower = c ∨ ∃ n < 26, c = Char.ofNat (0x41 + n) ∧ c.toLower = Char.ofNat (0x61 + n) := by
  have hletters : ∀ n < 26, (Char.ofNat (0x41 + n)).toLower = Char.ofNat (0x61 + n) := by decide
  by_cases h : 0x41 ≤ c.toNat ∧ c.toNat ≤ 0x5A
  · obtain ⟨hfirst, hlast⟩ := h
    have hc : c = Char.ofNat (0x41 + (c.toNat - 0x41)) := by
      rw [Nat.add_sub_cancel' hfirst, Char.ofNat_toNat]
    have hn : c.toNat - 0x41 < 26 := by omega
    exact Or.inr ⟨c.toNat - 0x41, hn, hc, (congrArg Char.toLower hc).trans (hletters _ hn)⟩
  · refine Or.inl (dif_neg fun hupper => h ⟨?_, ?_⟩)
    · exact UInt32.le_iff_toNat_le.mp hupper.1
    · exact UInt32.le_iff_toNat_le.mp hupper.2

/-- **What does not tell the two cases of an ASCII letter apart** is the same of a character and
of its folded form. -/
theorem apply_toLower {α : Type} {f : Char → α}
    (h : ∀ n < 26, f (Char.ofNat (0x61 + n)) = f (Char.ofNat (0x41 + n))) (c : Char) :
    f c.toLower = f c := by
  rcases toLower_cases c with hc | ⟨n, hn, hc, hl⟩
  · rw [hc]
  · rw [hl, h n hn, ← hc]

theorem isCased_toLower (c : Char) : isCased c.toLower = isCased c :=
  apply_toLower (by decide +kernel) c

theorem isIgnorable_toLower (c : Char) : isIgnorable c.toLower = isIgnorable c :=
  apply_toLower (by decide +kernel) c

theorem lowerChar_toLower (c : Char) : lowerChar c.toLower = lowerChar c :=
  apply_toLower (by decide +kernel) c

theorem isSigma_toLower (c : Char) : (c.toLower = 'Σ') = (c = 'Σ') :=
  apply_toLower (f := (· = 'Σ')) (by decide +kernel) c

/-! ### Lower-casing -/

theorem startsCased_map_toLower (cs : List Char) :
    startsCased (cs.map Char.toLower) = startsCased cs := by
  rw [startsCased, startsCased, dropWhile_map_of_apply isIgnorable_toLower, List.head?_map,
    Option.any_map, funext isCased_toLower]

theorem lowerChars_map_toLower (before cs : List Char) :
    lowerChars (before.map Char.toLower) (cs.map Char.toLower) = lowerChars before cs := by
  induction cs generalizing before with
  | nil => rfl
  | cons c cs ih =>
    rw [List.map_cons, lowerChars_cons, lowerChars_cons, ← List.map_cons, ih, lowerChar_toLower,
      endsWord, endsWord, startsCased_map_toLower, startsCased_map_toLower]
    simp only [isSigma_toLower]

/-- **A text and its folded form have one lower-case form.** -/
theorem lower_foldCase (s : String) : lower (foldCase s) = lower s := by
  rw [lower, lower, toList_foldCase]
  exact congrArg String.ofList (lowerChars_map_toLower [] s.toList)

end Text
end ClassLineage
