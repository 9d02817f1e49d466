import ClassLineage.Token

/-!
# Moving through tokens

The scanners move through a list of tokens by dropping from its front.  Each
mover here takes the tokens that are left and returns those that it leaves, always
a suffix, so nothing is read twice and nothing past the end; a position in the list
is the length of what has been dropped.

## Main definitions

* `skipTrivia` — drops blanks and comments.
* `nameText` — the name that a run of parts writes.
* `collectName` — drops a name, its parts joined.
* `skipBalanced` — drops a block with all blocks inside it.
* `skipStatement` — drops up to the end of a statement.
* `position` — a mover on the rest, as a function on positions.
-/

namespace ClassLineage
namespace Token

/-- The tokens after the blanks and comments at the start. -/
def skipTrivia (ts : List Token) : List Token := ts.dropWhile isTrivia

/-- The token may stand inside a name: a part of it, or trivia between two parts. -/
def isInName (t : Token) : Bool := t.isNamePart || t.isTrivia

/-- The name that the parts of a run of tokens write, if there are any. -/
def nameText (run : List Token) : Option String :=
  match run.filter isNamePart with
  | [] => none
  | parts => some (String.join (parts.map (·.text)))

/-- The name at the start of the tokens, its parts joined, and what follows it and the
trivia after it. -/
def collectName (ts : List Token) : Option String × List Token :=
  (nameText (ts.takeWhile isInName), ts.dropWhile isInName)

/-- The tokens after the block at the start, `depth` blocks being open.  A brace that
closes the last open block ends the search, and so does one that closes none. -/
def skipBalanced (depth : Nat) : List Token → List Token
  | [] => []
  | t :: ts =>
    if t.opensBlock then skipBalanced (depth + 1) ts
    else if t.closesBlock then if depth ≤ 1 then ts else skipBalanced (depth - 1) ts
    else skipBalanced depth ts

/-- The tokens after the next semicolon, or from the next brace on if that comes
first. -/
def skipStatement : List Token → List Token
  | [] => []
  | t :: ts =>
    if t.isSemicolon then ts
    else if t.opensBlock || t.closesBlock then t :: ts
    else skipStatement ts

/-- The position at which a mover stops when it starts from a position; one past the
end is left as it is. -/
def position (mover : List Token → List Token) (ts : List Token) (start : Nat) : Nat :=
  if ts.length < start then start else ts.length - (mover (ts.drop start)).length

/-! ### What is left is a suffix -/

theorem skipTrivia_suffix (ts : List Token) : skipTrivia ts <:+ ts := List.dropWhile_suffix _

theorem collectName_suffix (ts : List Token) : (collectName ts).2 <:+ ts :=
  List.dropWhile_suffix _

theorem suffix_of_collectName {ts after : List Token} {name : Option String}
    (h : collectName ts = (name, after)) : after <:+ ts := by
  have := collectName_suffix ts
  rwa [h] at this

theorem skipBalanced_suffix (depth : Nat) (ts : List Token) : skipBalanced depth ts <:+ ts := by
  fun_induction skipBalanced depth ts with
  | case1 => exact List.suffix_rfl
  | case2 d t ts _ ih => exact ih.trans (List.suffix_cons _ _)
  | case3 d t ts => exact List.suffix_cons _ _
  | case4 d t ts _ _ _ ih => exact ih.trans (List.suffix_cons _ _)
  | case5 d t ts _ _ ih => exact ih.trans (List.suffix_cons _ _)

theorem skipStatement_suffix (ts : List Token) : skipStatement ts <:+ ts := by
  fun_induction skipStatement ts with
  | case1 => exact List.suffix_rfl
  | case2 t ts => exact List.suffix_cons _ _
  | case3 t ts => exact List.suffix_rfl
  | case4 t ts _ _ ih => exact ih.trans (List.suffix_cons _ _)

theorem skipTrivia_cons {t : Token} (h : t.isTrivia = false) (ts : List Token) :
    skipTrivia (t :: ts) = t :: ts := by
  rw [skipTrivia, List.dropWhile_cons_of_neg (by simp [h])]

theorem length_lt_of_skipTrivia {ts rest : List Token} {t : Token}
    (h : skipTrivia ts = t :: rest) : rest.length < ts.length := by
  have hle := (skipTrivia_suffix ts).length_le
  rw [h, List.length_cons] at hle
  omega

/-! ### A name that is found is dropped -/

/-- Where no name is found, only trivia is dropped. -/
theorem nameText_eq_none_iff (run : List Token) :
    nameText run = none ↔ ∀ t ∈ run, t.isNamePart = false := by
  unfold nameText
  cases h : run.filter isNamePart with
  | nil => simpa [List.filter_eq_nil_iff] using h
  | cons a l =>
    have ha : a ∈ run.filter isNamePart := by rw [h]; exact List.mem_cons_self
    rw [List.mem_filter] at ha
    simp only [reduceCtorEq, false_iff]
    intro hall
    rw [hall a ha.1] at ha
    exact absurd ha.2 (by simp)

/-- A name that is found takes at least one token. -/
theorem collectName_length_lt {ts : List Token} {name : String}
    (h : (collectName ts).1 = some name) : (collectName ts).2.length < ts.length := by
  have hsplit : ts.takeWhile isInName ++ ts.dropWhile isInName = ts :=
    List.takeWhile_append_dropWhile
  have hne : ts.takeWhile isInName ≠ [] := by
    intro hnil
    simp [collectName, hnil, nameText] at h
  have hpos : 0 < (ts.takeWhile isInName).length := List.length_pos_iff.mpr hne
  have hlen := congrArg List.length hsplit
  rw [List.length_append] at hlen
  show (ts.dropWhile isInName).length < ts.length
  omega

theorem length_lt_of_collectName {ts after : List Token} {name : String}
    (h : collectName ts = (some name, after)) : after.length < ts.length := by
  have hlt := collectName_length_lt (congrArg Prod.fst h)
  rwa [h] at hlt

end Token
end ClassLineage
