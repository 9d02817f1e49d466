import ClassLineage.Proofs.Token.Grammar
import Mathlib.Data.List.Infix

/-!
# Where a block ends

A block ends with the first brace by which as many blocks are closed as have been opened.
Skipping a block keeps the number of open blocks and stops when it has come down; it ends
at the same place as counting does, also in tokens whose braces do not match.

## Main definitions

* `openings`, `closings` — how many tokens open a block, and how many close one.
* `blockLength` — how many tokens there are up to the brace that closes what is open.
* `BracesMatch` — the braces of tokens match, some blocks being open before them.

## Main results

* `skipBalanced_eq_drop` — **skipping stops where counting finds the end of the block.**
* `skipBalanced_add` — what is open inside is skipped before what is open around it.
* `BracesMatch.skipBalanced_append` — where the braces match, a block ends among the tokens.
-/

namespace ClassLineage
namespace Token

/-- How many of the tokens open a block. -/
def openings (ts : List Token) : Nat := ts.countP opensBlock

/-- How many of the tokens close a block. -/
def closings (ts : List Token) : Nat := ts.countP closesBlock

/-- How many tokens there are up to the brace that closes the last of `depth` open blocks,
with this brace: the least number that closes as many blocks as are open before and among
them, or all tokens if there is none. -/
def blockLength (depth : Nat) (ts : List Token) : Nat :=
  ((List.range ts.length).find? fun n =>
    depth + openings (ts.take (n + 1)) ≤ closings (ts.take (n + 1))).elim ts.length (· + 1)

/-- The braces of the tokens match, `depth` blocks being open before them: no more blocks are
closed at any place than are open there, and none is open at the end. -/
structure BracesMatch (depth : Nat) (ts : List Token) : Prop where
  /-- What is closed has been opened. -/
  opened : ∀ us, us <+: ts → closings us ≤ depth + openings us
  /-- What is opened is closed. -/
  closed : closings ts = depth + openings ts

theorem bracesMatch_iff {depth : Nat} {ts : List Token} :
    BracesMatch depth ts ↔ (∀ us ∈ ts.inits, closings us ≤ depth + openings us) ∧
      closings ts = depth + openings ts := by
  simp only [List.mem_inits]
  exact ⟨fun h => ⟨h.opened, h.closed⟩, fun h => ⟨h.1, h.2⟩⟩

instance (depth : Nat) (ts : List Token) : Decidable (BracesMatch depth ts) :=
  decidable_of_iff _ bracesMatch_iff.symm

/-! ### Counting braces -/

@[simp] theorem openings_nil : openings [] = 0 := rfl

@[simp] theorem closings_nil : closings [] = 0 := rfl

theorem openings_append (ts us : List Token) :
    openings (ts ++ us) = openings ts + openings us := List.countP_append

theorem closings_append (ts us : List Token) :
    closings (ts ++ us) = closings ts + closings us := List.countP_append

theorem openings_cons (t : Token) (ts : List Token) :
    openings (t :: ts) = openings [t] + openings ts := openings_append [t] ts

theorem closings_cons (t : Token) (ts : List Token) :
    closings (t :: ts) = closings [t] + closings ts := closings_append [t] ts

theorem openings_singleton (t : Token) : openings [t] = if t.opensBlock then 1 else 0 := by
  cases h : t.opensBlock <;> simp [openings, h]

theorem closings_singleton (t : Token) : closings [t] = if t.closesBlock then 1 else 0 := by
  cases h : t.closesBlock <;> simp [closings, h]

theorem closings_eq_zero {ts : List Token} (h : ∀ t ∈ ts, t.closesBlock = false) :
    closings ts = 0 := by
  rw [closings, List.countP_eq_zero]
  intro t ht
  simp [h t ht]

theorem closesBlock_of_opensBlock {t : Token} (h : t.opensBlock = true) :
    t.closesBlock = false := by
  rw [← Bool.not_eq_true]
  intro hc
  rw [opensBlock_of_closesBlock hc] at h
  exact Bool.false_ne_true h

/-! ### The end of a block, by its first token -/

section Length

variable {depth : Nat} {t : Token}

/-- The first token is counted, and the search goes on after it. -/
theorem blockLength_cons (h : closings [t] < depth + openings [t]) (ts : List Token) :
    blockLength depth (t :: ts) = blockLength (depth + openings [t] - closings [t]) ts + 1 := by
  have hshift : ∀ n, (depth + openings ((t :: ts).take (n + 1 + 1))
      ≤ closings ((t :: ts).take (n + 1 + 1)))
        ↔ (depth + openings [t] - closings [t] + openings (ts.take (n + 1))
            ≤ closings (ts.take (n + 1))) := by
    intro n
    rw [List.take_succ_cons, openings_cons, closings_cons]
    omega
  unfold blockLength
  rw [List.length_cons, List.range_succ_eq_map, List.find?_cons_of_neg, List.find?_map]
  · have hfun : ((fun n => decide (depth + openings ((t :: ts).take (n + 1))
        ≤ closings ((t :: ts).take (n + 1)))) ∘ Nat.succ)
        = fun n => decide (depth + openings [t] - closings [t] + openings (ts.take (n + 1))
            ≤ closings (ts.take (n + 1))) := by
      funext n
      simp only [Function.comp, Nat.succ_eq_add_one, hshift n]
    rw [Option.elim_map, hfun]
    cases List.find? _ (List.range ts.length) <;> rfl
  · simp only [Nat.zero_add, List.take_succ_cons, List.take_zero, decide_eq_true_eq]
    omega

theorem blockLength_of_opensBlock (ho : t.opensBlock = true) (depth : Nat) (ts : List Token) :
    blockLength depth (t :: ts) = blockLength (depth + 1) ts + 1 := by
  have hopen : openings [t] = 1 := by rw [openings_singleton, if_pos ho]
  have hclose : closings [t] = 0 := by
    rw [closings_singleton, closesBlock_of_opensBlock ho, if_neg Bool.false_ne_true]
  rw [blockLength_cons (by omega), hopen, hclose]
  rfl

theorem blockLength_of_closesBlock (hc : t.closesBlock = true) (depth : Nat) (ts : List Token) :
    blockLength (depth + 2) (t :: ts) = blockLength (depth + 1) ts + 1 := by
  have hopen : openings [t] = 0 := by
    rw [openings_singleton, opensBlock_of_closesBlock hc, if_neg Bool.false_ne_true]
  have hclose : closings [t] = 1 := by rw [closings_singleton, if_pos hc]
  rw [blockLength_cons (by omega), hopen, hclose]
  rfl

/-- The brace that closes the last open block ends the search. -/
theorem blockLength_last (hc : t.closesBlock = true) (ts : List Token) :
    blockLength 1 (t :: ts) = 1 := by
  have hopen : openings [t] = 0 := by
    rw [openings_singleton, opensBlock_of_closesBlock hc, if_neg Bool.false_ne_true]
  have hclose : closings [t] = 1 := by rw [closings_singleton, if_pos hc]
  unfold blockLength
  rw [List.length_cons, List.range_succ_eq_map, List.find?_cons_of_pos]
  · rfl
  · simp [hopen, hclose]

theorem blockLength_of_plain (ho : t.opensBlock = false) (hc : t.closesBlock = false)
    (hd : 0 < depth) (ts : List Token) :
    blockLength depth (t :: ts) = blockLength depth ts + 1 := by
  have hopen : openings [t] = 0 := by rw [openings_singleton, ho, if_neg Bool.false_ne_true]
  have hclose : closings [t] = 0 := by rw [closings_singleton, hc, if_neg Bool.false_ne_true]
  rw [blockLength_cons (by omega), hopen, hclose]
  rfl

end Length

/-- **Skipping stops where counting finds the end of the block,** some block being open. -/
theorem skipBalanced_eq_drop (depth : Nat) (ts : List Token) :
    skipBalanced (depth + 1) ts = ts.drop (blockLength (depth + 1) ts) := by
  induction ts generalizing depth with
  | nil => rfl
  | cons t ts ih =>
    rw [skipBalanced]
    by_cases ho : t.opensBlock = true
    · rw [if_pos ho, blockLength_of_opensBlock ho, List.drop_succ_cons, ih]
    by_cases hc : t.closesBlock = true
    · rw [if_neg ho, if_pos hc]
      cases depth with
      | zero => rw [if_pos (Nat.le_refl _), blockLength_last hc]; rfl
      | succ depth =>
        rw [if_neg (by omega), blockLength_of_closesBlock hc, List.drop_succ_cons, ← ih]
        rfl
    · rw [if_neg ho, if_neg hc]
      rw [Bool.not_eq_true] at ho hc
      rw [blockLength_of_plain ho hc (Nat.succ_pos _), List.drop_succ_cons, ih]

/-- The block that the first token opens ends where the braces after it balance it. -/
theorem skipBalanced_zero_eq_drop {t : Token} (ho : t.opensBlock = true) (ts : List Token) :
    skipBalanced 0 (t :: ts) = (t :: ts).drop (blockLength 0 (t :: ts)) := by
  rw [skipBalanced, if_pos ho, blockLength_of_opensBlock ho, List.drop_succ_cons,
    skipBalanced_eq_drop]

/-! ### Blocks inside of blocks -/

theorem skipBalanced_nil (depth : Nat) : skipBalanced depth [] = [] := by rw [skipBalanced]

/-- What is open inside is skipped before what is open around it. -/
theorem skipBalanced_add (inner outer : Nat) (ts : List Token) :
    skipBalanced (outer + 1) (skipBalanced (inner + 1) ts)
      = skipBalanced (inner + 1 + (outer + 1)) ts := by
  induction ts generalizing inner with
  | nil => rw [skipBalanced_nil, skipBalanced_nil, skipBalanced_nil]
  | cons t ts ih =>
    rw [skipBalanced, skipBalanced]
    by_cases ho : t.opensBlock = true
    · have hsum : inner + 1 + 1 + (outer + 1) = inner + 1 + (outer + 1) + 1 := by omega
      rw [if_pos ho, if_pos ho, ih, hsum]
    by_cases hc : t.closesBlock = true
    · rw [if_neg ho, if_pos hc, if_neg ho, if_pos hc]
      cases inner with
      | zero =>
        have hsum : 0 + 1 + (outer + 1) - 1 = outer + 1 := by omega
        rw [if_pos (Nat.le_refl _), if_neg (by omega), hsum]
      | succ inner =>
        have hsum : inner + 1 + 1 + (outer + 1) - 1 = inner + 1 + (outer + 1) := by omega
        rw [if_neg (by omega), if_neg (by omega), hsum]
        exact ih inner
    · rw [if_neg ho, if_neg hc, if_neg ho, if_neg hc, ih]

/-- Tokens that are no braces are passed over. -/
theorem skipBalanced_plain {us : List Token}
    (h : ∀ t ∈ us, t.opensBlock = false ∧ t.closesBlock = false) (depth : Nat) (ts : List Token) :
    skipBalanced depth (us ++ ts) = skipBalanced depth ts := by
  induction us with
  | nil => rfl
  | cons t us ih =>
    obtain ⟨ho, hc⟩ := h t List.mem_cons_self
    rw [List.cons_append, skipBalanced, ho, hc]
    exact ih fun u hu => h u (List.mem_cons_of_mem _ hu)

/-! ### Braces that match -/

namespace BracesMatch

variable {depth : Nat} {t : Token} {ts us : List Token}

/-- Where nothing follows, nothing is open. -/
theorem eq_zero (h : BracesMatch depth []) : depth = 0 := by
  have := h.closed
  rw [openings_nil, closings_nil] at this
  omega

/-- The braces of what follows match, the blocks being open that have been left open. -/
theorem of_append (h : BracesMatch depth (us ++ ts)) :
    closings us ≤ depth + openings us ∧
      BracesMatch (depth + openings us - closings us) ts := by
  have hus := h.opened us (List.prefix_append us ts)
  refine ⟨hus, fun vs hvs => ?_, ?_⟩
  · have := h.opened (us ++ vs) ((List.prefix_append_right_inj us).mpr hvs)
    rw [openings_append, closings_append] at this
    omega
  · have := h.closed
    rw [openings_append, closings_append] at this
    omega

theorem of_cons (h : BracesMatch depth (t :: ts)) :
    closings [t] ≤ depth + openings [t] ∧
      BracesMatch (depth + openings [t] - closings [t]) ts :=
  of_append (show BracesMatch depth ([t] ++ ts) from h)

theorem of_suffix (h : BracesMatch depth ts) (hs : us <:+ ts) : ∃ depth, BracesMatch depth us := by
  obtain ⟨taken, rfl⟩ := hs
  exact ⟨_, h.of_append.2⟩

theorem tail_of_opensBlock (h : BracesMatch depth (t :: ts)) (ho : t.opensBlock = true) :
    BracesMatch (depth + 1) ts := by
  have htail := h.of_cons.2
  rw [openings_singleton, closings_singleton, ho, closesBlock_of_opensBlock ho] at htail
  exact htail

theorem tail_of_closesBlock (h : BracesMatch depth (t :: ts)) (hc : t.closesBlock = true) :
    0 < depth ∧ BracesMatch (depth - 1) ts := by
  obtain ⟨hle, htail⟩ := h.of_cons
  rw [openings_singleton, closings_singleton, hc, opensBlock_of_closesBlock hc] at hle htail
  exact ⟨hle, htail⟩

theorem tail_of_plain (h : BracesMatch depth (t :: ts)) (ho : t.opensBlock = false)
    (hc : t.closesBlock = false) : BracesMatch depth ts := by
  have htail := h.of_cons.2
  rw [openings_singleton, closings_singleton, ho, hc] at htail
  exact htail

/-- A token that is no brace may follow. -/
theorem concat (h : BracesMatch depth ts) (ho : t.opensBlock = false)
    (hc : t.closesBlock = false) : BracesMatch depth (ts ++ [t]) := by
  have hopen : openings (ts ++ [t]) = openings ts := by
    rw [openings_append, openings_singleton, ho]
    rfl
  have hclose : closings (ts ++ [t]) = closings ts := by
    rw [closings_append, closings_singleton, hc]
    rfl
  refine ⟨fun us hus => ?_, by rw [hopen, hclose]; exact h.closed⟩
  rcases List.prefix_concat_iff.mp hus with rfl | hus
  · rw [hopen, hclose]
    exact h.closed.le
  · exact h.opened us hus

/-- **Where the braces match, a block ends among the tokens,** whatever follows them, and what
is open around it stays open. -/
theorem skipBalanced_append (h : BracesMatch depth ts) {inner : Nat} (hle : inner + 1 ≤ depth)
    (us : List Token) :
    skipBalanced (inner + 1) (ts ++ us) = skipBalanced (inner + 1) ts ++ us ∧
      BracesMatch (depth - (inner + 1)) (skipBalanced (inner + 1) ts) := by
  induction ts generalizing depth inner with
  | nil =>
    have := h.eq_zero
    omega
  | cons t ts ih =>
    rw [List.cons_append, skipBalanced, skipBalanced]
    by_cases ho : t.opensBlock = true
    · have hdepth : depth + 1 - (inner + 1 + 1) = depth - (inner + 1) := by omega
      rw [if_pos ho, if_pos ho, ← hdepth]
      exact ih (h.tail_of_opensBlock ho) (by omega)
    by_cases hc : t.closesBlock = true
    · obtain ⟨-, htail⟩ := h.tail_of_closesBlock hc
      rw [if_neg ho, if_neg ho, if_pos hc, if_pos hc]
      cases inner with
      | zero =>
        rw [if_pos (Nat.le_refl _), if_pos (Nat.le_refl _)]
        exact ⟨rfl, htail⟩
      | succ inner =>
        have hdepth : depth - 1 - (inner + 1) = depth - (inner + 1 + 1) := by omega
        rw [if_neg (by omega), if_neg (by omega), ← hdepth]
        exact ih htail (by omega)
    · rw [if_neg ho, if_neg ho, if_neg hc, if_neg hc]
      rw [Bool.not_eq_true] at ho hc
      exact ih (h.tail_of_plain ho hc) hle

end BracesMatch
end Token
end ClassLineage
