import ClassLineage.Text.Lower

/-!
# Lower-casing and what cuts words

The lower-case form of a sigma depends on the letters around it.  A character that is neither a
letter with a case nor ignorable cuts words: whatever stands before it does not matter for what
follows it.

## Main definitions

* `CutsWords` — the character cuts words.

## Main results

* `lowerChars_append_cons` — what stands before such a character does not matter.
* `lowerChars_cons_of_cutsWords` — lower-casing starts anew after it.
* `lowerChars_append_cutsWords` — **texts on its two sides are lower-cased each for itself.**
-/

namespace ClassLineage
namespace Text

/-- The character cuts words: it is neither a letter with a case nor ignorable, and it is its
own lower-case form. -/
structure CutsWords (d : Char) : Prop where
  /-- It does not stand inside a word without ending it. -/
  isIgnorable : isIgnorable d = false
  /-- It is no letter with a case. -/
  isCased : isCased d = false
  /-- It stays itself. -/
  lowerChar : lowerChar d = [d]
  /-- It is no sigma. -/
  ne_sigma : d ≠ 'Σ'

variable {d : Char}

/-- Whether a letter comes first is decided before a character that cuts words. -/
theorem startsCased_append_cons (hd : CutsWords d) (cs more : List Char) :
    startsCased (cs ++ d :: more) = startsCased cs := by
  unfold startsCased
  induction cs with
  | nil =>
    rw [List.nil_append, List.dropWhile_cons_of_neg (by simp [hd.isIgnorable])]
    simp [hd.isCased]
  | cons c cs ih =>
    cases hc : isIgnorable c with
    | true => rw [List.cons_append, List.dropWhile_cons_of_pos hc, ih,
        List.dropWhile_cons_of_pos hc]
    | false =>
      have hneg : ¬ isIgnorable c = true := by simp [hc]
      rw [List.cons_append, List.dropWhile_cons_of_neg hneg, List.dropWhile_cons_of_neg hneg]
      rfl

/-- **What stands before a character that cuts words does not matter.** -/
theorem lowerChars_append_cons (hd : CutsWords d) (before more cs : List Char) :
    lowerChars (before ++ d :: more) cs = lowerChars before cs := by
  induction cs generalizing before with
  | nil => rfl
  | cons c cs ih =>
    rw [lowerChars_cons, lowerChars_cons, ← List.cons_append, ih, endsWord, endsWord,
      startsCased_append_cons hd]

/-- Lower-casing starts anew after a character that cuts words. -/
theorem lowerChars_cons_of_cutsWords (hd : CutsWords d) (before cs : List Char) :
    lowerChars before (d :: cs) = d :: lowerChars [] cs := by
  rw [lowerChars_cons, if_neg hd.ne_sigma, hd.lowerChar, List.singleton_append,
    ← List.nil_append (d :: before), lowerChars_append_cons hd]

/-- **Texts on the two sides of a character that cuts words are lower-cased each for itself.** -/
theorem lowerChars_append_cutsWords (hd : CutsWords d) (before cs more : List Char) :
    lowerChars before (cs ++ d :: more) = lowerChars before cs ++ d :: lowerChars [] more := by
  induction cs generalizing before with
  | nil => exact lowerChars_cons_of_cutsWords hd before more
  | cons c cs ih =>
    rw [List.cons_append, lowerChars_cons, lowerChars_cons, ih, endsWord, endsWord,
      startsCased_append_cons hd, List.append_assoc]

end Text
end ClassLineage
