import ClassLineage.Namespace
import ClassLineage.Proofs.Name.Case
import Mathlib.Data.List.Forall2

/-!
# Tokens in another case

Tokens may be recased: rewritten so that names change in the case of their ASCII letters alone.
What the movers look for is punctuation and kinds of tokens, which a change of case leaves as
they are.  So every mover gives the same on tokens and on the tokens whose names are folded, and
leaves the same tokens, folded; and recased tokens are the same when they are folded.

## Main definitions

* `Token.IsRecasing` — two tokens differ in the case of a name alone.
* `Token.foldCase` — a token with its text folded where it is part of a name.

## Main results

* `Token.map_foldCase_eq` — recased tokens are the same when they are folded.
* `Token.collectName_foldCase`, `Token.skipStatement_foldCase`, `Token.skipBalanced_foldCase` —
  the movers.
* `NamespaceHead.read_foldCase`, `NamespaceHead.opensBlock_foldCase` — the heads of namespaces.
-/

namespace ClassLineage
namespace Token

open Text

/-- The token `u` differs from `t` in the case of the ASCII letters of its text alone, and only if
it is a segment of a name. -/
structure IsRecasing (t u : Token) : Prop where
  /-- The kind is the same. -/
  kind : u.kind = t.kind
  /-- The line is the same. -/
  line : u.line = t.line
  /-- The text of a segment is the same but for its case. -/
  name : t.kind = .name → Text.foldCase u.text = Text.foldCase t.text
  /-- The text of any other token is the same. -/
  other : t.kind ≠ .name → u.text = t.text

instance (t u : Token) : Decidable (IsRecasing t u) :=
  decidable_of_iff (u.kind = t.kind ∧ u.line = t.line ∧
      (t.kind = .name → Text.foldCase u.text = Text.foldCase t.text) ∧
      (t.kind ≠ .name → u.text = t.text))
    ⟨fun ⟨hk, hl, hn, ho⟩ => ⟨hk, hl, hn, ho⟩, fun h => ⟨h.kind, h.line, h.name, h.other⟩⟩

/-- The token, its text folded if it is part of a name. -/
def foldCase (t : Token) : Token :=
  { t with text := if t.isNamePart then Text.foldCase t.text else t.text }

section Fold

variable {t u : Token} {ts us : List Token}

/-! ### Single tokens -/

@[simp] theorem kind_foldCase (t : Token) : t.foldCase.kind = t.kind := rfl

@[simp] theorem isKeyword_foldCase (t : Token) (k : Keyword) :
    t.foldCase.isKeyword k = t.isKeyword k := rfl

@[simp] theorem isTrivia_foldCase (t : Token) : t.foldCase.isTrivia = t.isTrivia := rfl

@[simp] theorem isInName_foldCase (t : Token) : t.foldCase.isInName = t.isInName := rfl

theorem text_foldCase_of_isNamePart (h : t.isNamePart = true) :
    t.foldCase.text = Text.foldCase t.text := if_pos h

theorem text_foldCase_of_name (h : t.kind = .name) : t.foldCase.text = Text.foldCase t.text :=
  text_foldCase_of_isNamePart (by simp [isNamePart, h])

@[simp] theorem isSymbol_foldCase (t : Token) (s : String) :
    t.foldCase.isSymbol s = t.isSymbol s := by
  rw [isSymbol, isSymbol, kind_foldCase]
  by_cases hk : t.kind = .symbol
  · have hpart : t.isNamePart = false := by simp [isNamePart, hk]
    rw [foldCase, if_neg (by simp [hpart])]
  · rw [beq_eq_false_iff_ne.mpr hk, Bool.false_and, Bool.false_and]

@[simp] theorem isComma_foldCase (t : Token) : t.foldCase.isComma = t.isComma :=
  isSymbol_foldCase t _

@[simp] theorem isSemicolon_foldCase (t : Token) : t.foldCase.isSemicolon = t.isSemicolon :=
  isSymbol_foldCase t _

@[simp] theorem closesBlock_foldCase (t : Token) : t.foldCase.closesBlock = t.closesBlock :=
  isSymbol_foldCase t _

/-- No letter is written like the start of an interpolation. -/
theorem foldCase_eq_interpolation_iff {s : String} : Text.foldCase s = "$\x7b" ↔ s = "$\x7b" := by
  have hdollar : ∀ c : Char, (c.toLower = '$') = (c = '$') :=
    apply_toLower (f := (· = '$')) (by decide)
  have hbrace : ∀ c : Char, (c.toLower = '\x7b') = (c = '\x7b') :=
    apply_toLower (f := (· = '\x7b')) (by decide)
  have hmark : ∀ s : String, s = "$\x7b" ↔ s.toList = ['$', '\x7b'] := by
    intro s
    rw [← String.toList_inj]
    rfl
  rw [hmark, hmark, toList_foldCase]
  simp only [List.map_eq_cons_iff, List.map_eq_nil_iff, hdollar, hbrace]
  constructor
  · rintro ⟨_, _, h, rfl, _, _, rfl, rfl, rfl⟩
    exact h
  · exact fun h => ⟨_, _, h, rfl, _, _, rfl, rfl, rfl⟩

@[simp] theorem opensBlock_foldCase (t : Token) : t.foldCase.opensBlock = t.opensBlock := by
  have hmark : (t.foldCase.text == "$\x7b") = (t.text == "$\x7b") := by
    rw [foldCase]
    dsimp only
    split
    · rw [Bool.eq_iff_iff, beq_iff_eq, beq_iff_eq, foldCase_eq_interpolation_iff]
    · rfl
  rw [opensBlock, opensBlock, isSymbol_foldCase, hmark]

/-- Recased tokens are the same when they are folded. -/
theorem IsRecasing.foldCase_eq (h : IsRecasing t u) : u.foldCase = t.foldCase := by
  rw [foldCase, foldCase, isNamePart, isNamePart, h.kind, h.line]
  congr 1
  by_cases hk : t.kind = .name
  · rw [h.name hk]
    simp [hk]
  · rw [h.other hk]

theorem map_foldCase_eq (h : List.Forall₂ IsRecasing ts us) :
    us.map foldCase = ts.map foldCase := by
  induction h with
  | nil => rfl
  | cons h _ ih => rw [List.map_cons, List.map_cons, h.foldCase_eq, ih]

/-! ### Movers -/

theorem skipTrivia_foldCase (ts : List Token) :
    skipTrivia (ts.map foldCase) = (skipTrivia ts).map foldCase :=
  dropWhile_map_of_apply isTrivia_foldCase ts

theorem nameText_foldCase (run : List Token) :
    nameText (run.map foldCase) = (nameText run).map Text.foldCase := by
  have htexts : ∀ parts : List Token, (∀ t ∈ parts, t.isNamePart = true) →
      (parts.map foldCase).map (·.text) = (parts.map (·.text)).map Text.foldCase := by
    intro parts hparts
    rw [List.map_map, List.map_map]
    exact List.map_congr_left fun t ht => text_foldCase_of_isNamePart (hparts t ht)
  have hfilter : (run.map foldCase).filter isNamePart = (run.filter isNamePart).map foldCase :=
    List.filter_map
  have hall : ∀ t ∈ run.filter isNamePart, t.isNamePart = true := fun t ht =>
    (List.mem_filter.mp ht).2
  rw [nameText, nameText, hfilter]
  cases hparts : run.filter isNamePart with
  | nil => rfl
  | cons t parts =>
    rw [hparts] at hall
    exact congrArg some ((congrArg String.join (htexts _ hall)).trans (foldCase_join _).symm)

theorem collectName_foldCase (ts : List Token) :
    collectName (ts.map foldCase)
      = ((collectName ts).1.map Text.foldCase, (collectName ts).2.map foldCase) := by
  rw [collectName, dropWhile_map_of_apply isInName_foldCase,
    takeWhile_map_of_apply isInName_foldCase, nameText_foldCase]
  rfl

theorem skipStatement_foldCase (ts : List Token) :
    skipStatement (ts.map foldCase) = (skipStatement ts).map foldCase := by
  induction ts with
  | nil => rfl
  | cons t ts ih =>
    rw [List.map_cons, skipStatement, skipStatement, isSemicolon_foldCase, opensBlock_foldCase,
      closesBlock_foldCase, ih]
    split_ifs <;> rfl

theorem skipBalanced_foldCase (depth : Nat) (ts : List Token) :
    skipBalanced depth (ts.map foldCase) = (skipBalanced depth ts).map foldCase := by
  induction ts generalizing depth with
  | nil => rfl
  | cons t ts ih =>
    rw [List.map_cons, skipBalanced, skipBalanced, opensBlock_foldCase, closesBlock_foldCase, ih,
      ih, ih]
    split_ifs <;> rfl

end Fold
end Token

open Token

/-! ### Heads of namespaces -/

namespace NamespaceHead

/-- The head with its name and the tokens left folded. -/
def foldCase (head : NamespaceHead) : NamespaceHead :=
  ⟨head.declared.map Text.foldCase, head.rest.map Token.foldCase⟩

theorem isRelative_foldCase (ts : List Token) :
    isRelative (ts.map Token.foldCase) = isRelative ts := by
  rw [isRelative, isRelative, skipTrivia_foldCase, List.head?_map, Option.any_map]
  rfl

theorem dropEnd_foldCase (ts : List Token) :
    dropEnd (ts.map Token.foldCase) = (dropEnd ts).map Token.foldCase := by
  cases ts with
  | nil => rfl
  | cons t ts =>
    rw [List.map_cons, dropEnd, dropEnd, isSemicolon_foldCase, opensBlock_foldCase]
    split <;> rfl

theorem read_foldCase (ts : List Token) : read (ts.map Token.foldCase) = (read ts).foldCase := by
  rw [read, read, isRelative_foldCase, skipTrivia_foldCase, collectName_foldCase]
  split
  · rfl
  · rw [foldCase, dropEnd_foldCase]
    cases (collectName ts).1 with
    | none => rfl
    | some name =>
      simp only [Option.map_some, Option.getD_some, Name.trimSeparators_foldCase]

theorem opensBlock_foldCase (head : NamespaceHead) (ts : List Token) :
    head.foldCase.opensBlock (ts.map Token.foldCase) = head.opensBlock ts := by
  rw [opensBlock, opensBlock, foldCase, List.length_map, List.length_map, ← List.map_take,
    List.getLast?_map, Option.any_map]
  exact congrArg (Option.any · _) (funext Token.opensBlock_foldCase)

end NamespaceHead
end ClassLineage
