/-!
# Splitting

## Main definitions

* `splitChars p cs` — the runs of characters between those satisfying `p`.
* `splitAll p s` — the same for a text.
-/

namespace ClassLineage
namespace Text

/-- The runs of characters between those satisfying `p`: always one more than there are
such characters. -/
def splitChars (p : Char → Bool) : List Char → List (List Char)
  | [] => [[]]
  | c :: cs =>
    match p c, splitChars p cs with
    | true, pieces => [] :: pieces
    | false, piece :: pieces => (c :: piece) :: pieces
    | false, [] => [[c]]

/-- The pieces of a text between the characters satisfying `p`. -/
def splitAll (p : Char → Bool) (s : String) : List String :=
  (splitChars p s.toList).map String.ofList

theorem splitChars_ne_nil (p : Char → Bool) (cs : List Char) : splitChars p cs ≠ [] := by
  cases cs with
  | nil => simp [splitChars]
  | cons c cs => rw [splitChars]; split <;> simp

theorem length_splitChars (p : Char → Bool) (cs : List Char) :
    (splitChars p cs).length = cs.countP p + 1 := by
  induction cs with
  | nil => rfl
  | cons c cs ih =>
    rw [splitChars]
    split
    · next hc => simp [ih, hc]
    · next hc hs => rw [hs] at ih; simpa [hc] using ih
    · next hs => exact absurd hs (splitChars_ne_nil p cs)

end Text
end ClassLineage
