import ClassLineage.Text.CaseTable

/-!
# Lower-casing

The lower-case form of a text, over the whole of Unicode.  Most characters have a
lower-case form of their own; two have not.  `İ` becomes two characters, and the
form of a capital sigma depends on the letters around it: it is `ς` at the end of
a word and `σ` elsewhere.

## Main definitions

* `lowerChar` — the lower-case form of a character, wherever it stands.
* `endsWord` — a sigma between two given texts ends a word.
* `lowerChars` — the lower-case form of a list of characters, given what precedes it.
* `lower` — the lower-case form of a text.
-/

namespace ClassLineage
namespace Text

/-- The lower-case form of a code point, if it has another one of one character. -/
def lowerCode? (n : Nat) : Option Nat := caseRuns.findSome? (·.lower? n)

/-- The lower-case form of a character, wherever it stands. -/
def lowerChar (c : Char) : List Char :=
  if c = 'İ' then ['i', '\u0307']
  else match lowerCode? c.toNat with
    | some n => [Char.ofNat n]
    | none => [c]

/-- The character may stand inside a word, or after it, without ending it. -/
def isIgnorable (c : Char) : Bool := ignorableRanges.contains c.toNat

/-- The character is a letter with a case, and not an ignorable one. -/
def isCased (c : Char) : Bool := casedRanges.contains c.toNat

/-- The first character that is not ignorable is a letter with a case. -/
def startsCased (cs : List Char) : Bool :=
  (cs.dropWhile isIgnorable).head?.any isCased

/-- A sigma ends a word when a letter precedes it and none follows it; `before` is
what precedes it, nearest character first. -/
def endsWord (before after : List Char) : Bool := startsCased before && !startsCased after

/-- The lower-case form of a list of characters that follow `before`, which is
given nearest character first. -/
def lowerChars (before : List Char) : List Char → List Char
  | [] => []
  | c :: cs =>
    (if c = 'Σ' then [if endsWord before cs then 'ς' else 'σ'] else lowerChar c)
      ++ lowerChars (c :: before) cs

/-- The lower-case form of a text. -/
def lower (s : String) : String := String.ofList (lowerChars [] s.toList)

@[simp] theorem lowerChars_nil (before : List Char) : lowerChars before [] = [] := rfl

theorem lowerChars_cons (before : List Char) (c : Char) (cs : List Char) :
    lowerChars before (c :: cs)
      = (if c = 'Σ' then [if endsWord before cs then 'ς' else 'σ'] else lowerChar c)
        ++ lowerChars (c :: before) cs := rfl

@[simp] theorem toList_lower (s : String) : (lower s).toList = lowerChars [] s.toList :=
  String.toList_ofList

end Text
end ClassLineage
