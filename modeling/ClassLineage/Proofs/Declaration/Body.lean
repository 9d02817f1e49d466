import ClassLineage.Proofs.Declaration.Extent
import ClassLineage.Proofs.Token.Position
import Mathlib.Order.Bounds.Basic

/-!
# Bodies end with their blocks

A block that is opened at a position ends behind the first token with which, counted from that
position on, as many blocks are closed as are opened.  Skipping the block stops there.  Reading it
as the body of a class counts braces on its own and hands over to statements that use traits, which
take semicolons and whole blocks that are not counted; it stops at the same place nevertheless.

## Main definitions

* `Token.Balances` — as many blocks are closed as are opened, counted from a position on.
* `Token.BlockEnds` — where a block ends.

## Main results

* `Token.blockEnds_iff` — a block has one end, which is that of its length.
* `Outline.position_readBody` — **a body ends with its block.**
-/

namespace ClassLineage

namespace Token

variable {ts : List Token} {start i stop : Nat}

/-- With the token at `i` as many blocks are closed as are opened, if they are counted from the
token at `start` on. -/
structure Balances (ts : List Token) (start i : Nat) : Prop where
  /-- The counting has begun. -/
  le : start ≤ i
  /-- The token is there. -/
  lt : i < ts.length
  /-- What is opened is closed. -/
  closed : openings ((ts.take (i + 1)).drop start) ≤ closings ((ts.take (i + 1)).drop start)

/-- The block that is opened at `start` ends before the position `stop`. -/
inductive BlockEnds (ts : List Token) (start : Nat) : Nat → Prop
  /-- It ends with the first token that balances it. -/
  | behind {i : Nat} (h : IsLeast {j | Balances ts start j} i) : BlockEnds ts start (i + 1)
  /-- If no token balances it, it ends with the last one. -/
  | unclosed (h : ∀ i, ¬Balances ts start i) : BlockEnds ts start ts.length

/-- The tokens from a position on, up to another one. -/
theorem drop_take_add (ts : List Token) (start n : Nat) :
    (ts.take (start + n + 1)).drop start = (ts.drop start).take (n + 1) := by
  rw [List.drop_take]
  congr 1
  omega

theorem balances_add_iff {n : Nat} :
    Balances ts start (start + n) ↔ n < (ts.drop start).length ∧
      0 + openings ((ts.drop start).take (n + 1)) ≤ closings ((ts.drop start).take (n + 1)) := by
  rw [Nat.zero_add, ← drop_take_add, List.length_drop]
  constructor
  · intro h
    have := h.lt
    exact ⟨by omega, h.closed⟩
  · rintro ⟨hlt, hclosed⟩
    exact ⟨Nat.le_add_right _ _, by omega, hclosed⟩

/-- **A block has one end,** which is that of its length. -/
theorem blockEnds_iff (hstart : start ≤ ts.length) :
    BlockEnds ts start stop ↔ stop = start + blockLength 0 (ts.drop start) := by
  unfold blockLength
  cases hfind : (List.range (ts.drop start).length).find? fun n =>
      decide (0 + openings ((ts.drop start).take (n + 1))
        ≤ closings ((ts.drop start).take (n + 1))) with
  | none =>
    have hnone : ∀ i, ¬Balances ts start i := by
      intro i h
      obtain ⟨n, rfl⟩ := Nat.exists_eq_add_of_le h.le
      obtain ⟨hlt, hclosed⟩ := balances_add_iff.mp h
      have hnot := List.find?_eq_none.mp hfind n (List.mem_range.mpr hlt)
      exact hnot (decide_eq_true hclosed)
    have hlength : start + (ts.drop start).length = ts.length := by
      rw [List.length_drop]
      omega
    rw [Option.elim_none, hlength]
    constructor
    · intro h
      cases h with
      | behind hleast => exact absurd hleast.1 (hnone _)
      | unclosed => rfl
    · rintro rfl
      exact .unclosed hnone
  | some n =>
    rw [List.find?_range_eq_some] at hfind
    obtain ⟨hclosed, hmem, hbefore⟩ := hfind
    have hleast : IsLeast {j | Balances ts start j} (start + n) := by
      refine ⟨balances_add_iff.mpr ⟨List.mem_range.mp hmem, of_decide_eq_true hclosed⟩, ?_⟩
      intro j hj
      obtain ⟨m, rfl⟩ := Nat.exists_eq_add_of_le hj.le
      by_contra hlt
      have hnot := hbefore m (by omega)
      rw [decide_eq_true (balances_add_iff.mp hj).2] at hnot
      exact absurd hnot (by decide)
    rw [Option.elim_some, ← Nat.add_assoc]
    constructor
    · intro h
      cases h with
      | behind hother => rw [hother.unique hleast]
      | unclosed hnone => exact absurd hleast.1 (hnone _)
    · rintro rfl
      exact .behind hleast

theorem BlockEnds.le_length (h : BlockEnds ts start stop) : stop ≤ ts.length := by
  cases h with
  | behind hleast => exact hleast.1.lt
  | unclosed => exact Nat.le_refl _

/-- **A block is skipped up to its end.** -/
theorem lands_skipBalanced {t : Token} {rest : List Token} (hdrop : ts.drop i = t :: rest)
    (ho : t.opensBlock = true) :
    Lands ts i (skipBalanced 0 (ts.drop i)) (i + blockLength 0 (ts.drop i)) where
  le := Nat.le_add_right _ _
  le_max := by
    have hends := (blockEnds_iff (lt_length_of_cons hdrop).le).mpr rfl
    exact hends.le_length.trans (Nat.le_max_right _ _)
  drop := by rw [← List.drop_drop, hdrop, ← skipBalanced_zero_eq_drop ho]

end Token

namespace Outline

open Token

/-- **A body is read up to the end of its block,** from behind the brace that opens it. -/
theorem lands_readBody {ts rest : List Token} {t : Token} {i : Nat} (hm : MarksInterpolate ts)
    (hdrop : ts.drop i = t :: rest) (ho : t.opensBlock = true) :
    Lands ts (i + 1) (readBody 1 (ts.drop (i + 1))).2 (i + blockLength 0 (ts.drop i)) := by
  have hskip := lands_skipBalanced hdrop ho
  have hquiet : OpensOutsideNames (t :: rest) :=
    hm.opensOutsideNames.of_suffix (hdrop ▸ List.drop_suffix i ts)
  have hbody : (readBody 1 rest).2 = skipBalanced 0 (t :: rest) := by
    rw [readBody_rest hquiet.tail Nat.one_pos, skipBalanced, if_pos ho]
  -- the block holds at least its opening brace
  have hlength : blockLength 0 (ts.drop i) = blockLength 1 rest + 1 := by
    rw [hdrop, blockLength_of_opensBlock ho]
  refine ⟨by omega, hskip.le_max.trans (by omega), ?_⟩
  rw [hskip.drop, drop_succ_of_cons hdrop, hbody, hdrop]

/-- **A body ends with its block.**  The block that a token opens has one end, at which skipping it
stops, and reading it as a body stops there too, whatever statements that use traits are in it and
whether it is closed or not.  The names of the traits are resolved only later, so that neither the
namespace nor the imports matter. -/
theorem position_readBody {ts : List Token} (hm : MarksInterpolate ts) {i : Nat} {t : Token}
    (ht : ts[i]? = some t) (ho : t.opensBlock = true) :
    (∀ stop, BlockEnds ts i stop ↔ stop = position (skipBalanced 0) ts i) ∧
      position (fun us => (readBody 1 us).2) ts (i + 1) = position (skipBalanced 0) ts i := by
  obtain ⟨hi, rfl⟩ := List.getElem?_eq_some_iff.mp ht
  have hdrop : ts.drop i = ts[i] :: ts.drop (i + 1) := List.drop_eq_getElem_cons hi
  rw [← (lands_skipBalanced hdrop ho).eq_position]
  refine ⟨fun stop => blockEnds_iff hi.le, ?_⟩
  exact (Lands.eq_position (lands_readBody hm hdrop ho)).symm

/-- A body with a list of traits that a brace breaks off, traits that are adapted, and blocks inside
of others, before a class whose body is not closed. -/
def adaptedFile : List Token :=
  [⟨.keyword .classWord, "class", 1⟩, ⟨.name, "A", 1⟩, ⟨.symbol, "\x7b", 1⟩,
    ⟨.keyword .useWord, "use", 2⟩, ⟨.name, "T", 2⟩, ⟨.symbol, ",", 2⟩, ⟨.name, "U", 2⟩,
    ⟨.symbol, "\x7b", 2⟩, ⟨.name, "f", 2⟩, ⟨.keyword .asWord, "as", 2⟩, ⟨.name, "g", 2⟩,
    ⟨.symbol, ";", 2⟩, ⟨.symbol, "\x7d", 2⟩, ⟨.symbol, "\x7b", 3⟩, ⟨.other, "$\x7b", 3⟩,
    ⟨.name, "x", 3⟩, ⟨.symbol, "\x7d", 3⟩, ⟨.symbol, "\x7d", 3⟩,
    ⟨.keyword .useWord, "use", 4⟩, ⟨.name, "V", 4⟩, ⟨.symbol, ",", 4⟩, ⟨.symbol, "\x7d", 5⟩,
    ⟨.keyword .classWord, "class", 6⟩, ⟨.name, "B", 6⟩, ⟨.symbol, "\x7b", 6⟩,
    ⟨.keyword .useWord, "use", 6⟩, ⟨.name, "W", 6⟩]

theorem position_readBody_adapted :
    MarksInterpolate adaptedFile ∧ BlockEnds adaptedFile 2 22 ∧
      position (fun us => (readBody 1 us).2) adaptedFile 3 = 22 ∧
      BlockEnds adaptedFile 24 27 ∧
      position (fun us => (readBody 1 us).2) adaptedFile 25 = 27 := by
  have hm : MarksInterpolate adaptedFile := by
    simp [MarksInterpolate, adaptedFile]
  have hclosed := position_readBody hm (i := 2) rfl (by decide)
  have hopen := position_readBody hm (i := 24) rfl (by decide)
  exact ⟨hm, (hclosed.1 22).mpr (by decide), hclosed.2.trans (by decide),
    (hopen.1 27).mpr (by decide), hopen.2.trans (by decide)⟩

end Outline
end ClassLineage
