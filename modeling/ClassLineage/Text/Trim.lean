/-!
# Trimming

Taking the characters of a kind away from the ends of a text.

## Main definitions

* `trimStart p s`, `trimEnd p s` — `s` without the run of `p` at its start, at its end.
* `trimBoth p s` — both.
-/

namespace ClassLineage
namespace Text

/-- The text without the run of characters satisfying `p` at its start. -/
def trimStart (p : Char → Bool) (s : String) : String :=
  String.ofList (s.toList.dropWhile p)

/-- The text without the run of characters satisfying `p` at its end. -/
def trimEnd (p : Char → Bool) (s : String) : String :=
  String.ofList (s.toList.reverse.dropWhile p).reverse

/-- The text without the runs of characters satisfying `p` at its two ends. -/
def trimBoth (p : Char → Bool) (s : String) : String := trimEnd p (trimStart p s)

@[simp] theorem toList_trimStart (p : Char → Bool) (s : String) :
    (trimStart p s).toList = s.toList.dropWhile p := String.toList_ofList

@[simp] theorem toList_trimEnd (p : Char → Bool) (s : String) :
    (trimEnd p s).toList = (s.toList.reverse.dropWhile p).reverse := String.toList_ofList

end Text
end ClassLineage
