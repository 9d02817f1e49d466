import ClassLineage.Namespace
import Mathlib.Data.List.TakeWhile

/-!
# Trivia

Blanks and comments stand anywhere between the other tokens.  They are no keywords and
no punctuation; but a blank, a comment or a piece of a name that is written like the
start of an interpolation opens a block, whatever its kind, and is excluded where that
matters.

## Main definitions

* `significant` — the tokens that are not trivia.
* `OpensOutsideNames` — no blank, comment or piece of a name opens a block.
* `MarksInterpolate` — only punctuation and tokens without a kind of their own are
  written like the start of an interpolation.
-/

namespace ClassLineage
namespace Token

/-- The tokens that are not trivia. -/
def significant (ts : List Token) : List Token := ts.filter fun t => !t.isTrivia

/-- No blank, no comment and no piece of a name opens a block. -/
def OpensOutsideNames (ts : List Token) : Prop :=
  ∀ t ∈ ts, t.isInName = true → t.opensBlock = false

/-- Only punctuation and tokens without a kind of their own are written like the start
of an interpolation. -/
def MarksInterpolate (ts : List Token) : Prop :=
  ∀ t ∈ ts, t.text = "$\x7b" → t.kind = .symbol ∨ t.kind = .other

theorem significant_subset (ts : List Token) : significant ts ⊆ ts := List.filter_sublist.subset

/-! ### What trivia is not -/

theorem isInName_of_isTrivia {t : Token} (h : t.isTrivia = true) : t.isInName = true := by
  simp [isInName, h]

theorem isKeyword_of_isTrivia {t : Token} (h : t.isTrivia = true) (k : Keyword) :
    t.isKeyword k = false := by
  rw [isTrivia, Bool.or_eq_true, beq_iff_eq, beq_iff_eq] at h
  rcases h with h | h <;> simp [isKeyword, h]

theorem isSymbol_of_isTrivia {t : Token} (h : t.isTrivia = true) (s : String) :
    t.isSymbol s = false := by
  rw [isTrivia, Bool.or_eq_true, beq_iff_eq, beq_iff_eq] at h
  rcases h with h | h <;> simp [isSymbol, h]

theorem isComma_of_isTrivia {t : Token} (h : t.isTrivia = true) : t.isComma = false :=
  isSymbol_of_isTrivia h _

theorem isSemicolon_of_isTrivia {t : Token} (h : t.isTrivia = true) : t.isSemicolon = false :=
  isSymbol_of_isTrivia h _

theorem closesBlock_of_isTrivia {t : Token} (h : t.isTrivia = true) : t.closesBlock = false :=
  isSymbol_of_isTrivia h _

theorem isTrivia_of_isKeyword {t : Token} {k : Keyword} (h : t.isKeyword k = true) :
    t.isTrivia = false := by
  rw [← Bool.not_eq_true]
  intro ht
  rw [isKeyword_of_isTrivia ht] at h
  exact Bool.false_ne_true h

theorem isTrivia_of_isSymbol {t : Token} {s : String} (h : t.isSymbol s = true) :
    t.isTrivia = false := by
  rw [← Bool.not_eq_true]
  intro ht
  rw [isSymbol_of_isTrivia ht] at h
  exact Bool.false_ne_true h

/-! ### Lists whose names open no block -/

namespace OpensOutsideNames

variable {t : Token} {ts us : List Token}

theorem of_subset (h : OpensOutsideNames ts) (hs : us ⊆ ts) : OpensOutsideNames us :=
  fun t ht => h t (hs ht)

theorem of_suffix (h : OpensOutsideNames ts) (hs : us <:+ ts) : OpensOutsideNames us :=
  h.of_subset hs.subset

theorem tail (h : OpensOutsideNames (t :: ts)) : OpensOutsideNames ts :=
  h.of_suffix (List.suffix_cons t ts)

theorem head_trivia (h : OpensOutsideNames (t :: ts)) (ht : t.isTrivia = true) :
    t.opensBlock = false := h t List.mem_cons_self (isInName_of_isTrivia ht)

theorem significant (h : OpensOutsideNames ts) : OpensOutsideNames (significant ts) :=
  fun t ht => h t (List.mem_filter.mp ht).1

end OpensOutsideNames

/-- Of the pieces of a name and the trivia between them, those open a block that are written
like the start of an interpolation. -/
theorem opensBlock_of_isInName {t : Token} (h : t.isInName = true) :
    t.opensBlock = (t.text == "$\x7b") := by
  have hkind : t.kind ≠ .symbol := by
    intro hk
    simp [isInName, isNamePart, isTrivia, hk] at h
  rw [opensBlock, isSymbol, beq_eq_false_iff_ne.mpr hkind, Bool.false_and, Bool.false_or]

theorem opensOutsideNames_iff {ts : List Token} :
    OpensOutsideNames ts ↔ ∀ t ∈ ts, t.isInName = true → t.text ≠ "$\x7b" := by
  refine forall₂_congr fun t _ => forall_congr' fun hin => ?_
  rw [opensBlock_of_isInName hin, beq_eq_false_iff_ne]

theorem MarksInterpolate.of_subset {ts us : List Token} (h : MarksInterpolate ts) (hs : us ⊆ ts) :
    MarksInterpolate us := fun t ht => h t (hs ht)

/-- Punctuation is no part of a name. -/
theorem MarksInterpolate.opensOutsideNames {ts : List Token} (h : MarksInterpolate ts) :
    OpensOutsideNames ts := by
  rw [opensOutsideNames_iff]
  intro t ht hin htext
  rcases h t ht htext with hk | hk <;> simp [isInName, isNamePart, isTrivia, hk] at hin

/-- What opens a block is no part of a name. -/
theorem MarksInterpolate.isInName_of_opensBlock {ts : List Token} (h : MarksInterpolate ts)
    {t : Token} (ht : t ∈ ts) (ho : t.opensBlock = true) : t.isInName = false := by
  rw [← Bool.not_eq_true]
  intro hin
  rw [h.opensOutsideNames t ht hin] at ho
  exact Bool.false_ne_true ho

/-- A keyword opens no block. -/
theorem MarksInterpolate.opensBlock_of_isKeyword {ts : List Token} (h : MarksInterpolate ts)
    {t : Token} (ht : t ∈ ts) {k : Keyword} (hk : t.isKeyword k = true) :
    t.opensBlock = false := by
  have hkind : t.kind = .keyword k := by simpa [isKeyword] using hk
  have htext : t.text ≠ "$\x7b" := by
    intro htext
    rcases h t ht htext with hk' | hk' <;> simp [hkind] at hk'
  simp [opensBlock, isSymbol, hkind, htext]

end Token
end ClassLineage
