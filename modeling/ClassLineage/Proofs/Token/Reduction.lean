import ClassLineage.Proofs.Token.Trivia
import Mathlib.Data.List.Forall2
import Mathlib.Data.List.TakeWhile

/-!
# What the movers look at

Nothing that moves through tokens looks at all of a token: of its text only that of
names and punctuation counts, and whether it is that of an interpolation; its line does
not count at all.  So tokens may be rewritten as long as they keep their roles, and
trivia may be dropped besides.  Every mover gives the same result on a list that is
reduced in this way, and leaves of it what it leaves of the list, reduced.

## Main definitions

* `SameRole t u` — `u` is to the movers what `t` is.
* `role` — a token without what no mover looks at.
* `Reduces φ ts` — on the tokens `ts`, the rewriting `φ` keeps roles and drops trivia only.

## Main results

* `collectName_filterMap`, `skipStatement_filterMap`, `skipBalanced_filterMap` — the movers.
* `NamespaceHead.read_filterMap`, `NamespaceHead.opensBlock_filterMap` — the heads of
  namespaces.
-/

namespace ClassLineage
namespace Token

/-- The token `u` is to the movers what `t` is: it has the same kind, the same text where it
is part of a name or punctuation, and is written like an interpolation if `t` is. -/
structure SameRole (t u : Token) : Prop where
  /-- The kind is the same. -/
  kind : u.kind = t.kind
  /-- The text of a part of a name is the same. -/
  name : t.isNamePart = true → u.text = t.text
  /-- The text of punctuation is the same. -/
  symbol : t.kind = .symbol → u.text = t.text
  /-- Both are written like the start of an interpolation, or none is. -/
  mark : (u.text == "$\x7b") = (t.text == "$\x7b")

namespace SameRole

variable {t u : Token}

theorem refl (t : Token) : SameRole t t := ⟨rfl, fun _ => rfl, fun _ => rfl, rfl⟩

theorem isKeyword (h : SameRole t u) (k : Keyword) : u.isKeyword k = t.isKeyword k := by
  rw [Token.isKeyword, Token.isKeyword, h.kind]

theorem isTrivia (h : SameRole t u) : u.isTrivia = t.isTrivia := by
  rw [Token.isTrivia, Token.isTrivia, h.kind]

theorem isNamePart (h : SameRole t u) : u.isNamePart = t.isNamePart := by
  rw [Token.isNamePart, Token.isNamePart, h.kind]

theorem isInName (h : SameRole t u) : u.isInName = t.isInName := by
  rw [Token.isInName, Token.isInName, h.isNamePart, h.isTrivia]

theorem isSymbol (h : SameRole t u) (s : String) : u.isSymbol s = t.isSymbol s := by
  rw [Token.isSymbol, Token.isSymbol, h.kind]
  by_cases hk : t.kind = .symbol
  · rw [h.symbol hk]
  · have hkind : (t.kind == .symbol) = false := beq_eq_false_iff_ne.mpr hk
    rw [hkind, Bool.false_and, Bool.false_and]

theorem isComma (h : SameRole t u) : u.isComma = t.isComma := h.isSymbol _

theorem isSemicolon (h : SameRole t u) : u.isSemicolon = t.isSemicolon := h.isSymbol _

theorem closesBlock (h : SameRole t u) : u.closesBlock = t.closesBlock := h.isSymbol _

theorem opensBlock (h : SameRole t u) : u.opensBlock = t.opensBlock := by
  rw [Token.opensBlock, Token.opensBlock, h.isSymbol, h.mark]

/-- The text of a segment is the same. -/
theorem text_of_name (h : SameRole t u) (hk : t.kind = .name) : u.text = t.text :=
  h.name (by simp [Token.isNamePart, hk])

end SameRole

/-- The token without what no mover looks at. -/
def role (t : Token) : Token where
  kind := t.kind
  text := if t.isNamePart || t.kind == .symbol || t.text == "$\x7b" then t.text else ""
  line := 0

theorem sameRole_role (t : Token) : SameRole t t.role := by
  have htext : ∀ {b : Bool}, b = true → (t.isNamePart || t.kind == .symbol || b) = true :=
    fun h => by rw [h, Bool.or_true]
  refine ⟨rfl, fun hn => ?_, fun hs => ?_, ?_⟩
  · simp only [role, hn, Bool.true_or, if_true]
  · simp only [role, hs, beq_self_eq_true, Bool.or_true, Bool.true_or, if_true]
  · show ((if _ then t.text else "") == "$\x7b") = _
    split
    · rfl
    · next hno =>
      have hmark : (t.text == "$\x7b") = false := by
        rw [← Bool.not_eq_true]
        intro h
        exact hno (htext h)
      rw [hmark]
      decide

/-- Tokens with one role are the same where no mover looks at more. -/
theorem SameRole.role_eq {t u : Token} (h : SameRole t u) : u.role = t.role := by
  rw [role, role, h.kind, h.isNamePart, h.mark]
  congr 1
  split
  · next hlook =>
    rw [Bool.or_eq_true, Bool.or_eq_true, beq_iff_eq, beq_iff_eq] at hlook
    rcases hlook with (hn | hs) | hm
    · exact h.name hn
    · exact h.symbol hs
    · have hmark := h.mark
      rw [hm, beq_self_eq_true, beq_iff_eq] at hmark
      rw [hmark, hm]
  · rfl

/-- On the tokens `ts`, the rewriting `φ` keeps roles, drops trivia only, and drops none where
a piece of a name or trivia opens a block. -/
structure Reduces (φ : Token → Option Token) (ts : List Token) : Prop where
  /-- What is dropped is trivia. -/
  drops : ∀ t ∈ ts, φ t = none → t.isTrivia = true
  /-- What is not dropped keeps its role. -/
  keeps : ∀ t ∈ ts, ∀ u, φ t = some u → SameRole t u
  /-- Where anything is dropped, what opens a block is no part of a name. -/
  quiet : (∀ t ∈ ts, (φ t).isSome = true) ∨ OpensOutsideNames ts

section Reduction

variable {φ : Token → Option Token}

namespace Reduces

variable {t : Token} {ts us : List Token}

theorem of_subset (h : Reduces φ ts) (hs : us ⊆ ts) : Reduces φ us where
  drops := fun t ht => h.drops t (hs ht)
  keeps := fun t ht => h.keeps t (hs ht)
  quiet := h.quiet.imp (fun hk t ht => hk t (hs ht)) fun hq => hq.of_subset hs

theorem of_suffix (h : Reduces φ ts) (hs : us <:+ ts) : Reduces φ us := h.of_subset hs.subset

theorem tail (h : Reduces φ (t :: ts)) : Reduces φ ts := h.of_suffix (List.suffix_cons t ts)

/-- The first token is dropped, or it is kept in its role. -/
theorem cons_cases (h : Reduces φ (t :: ts)) :
    (φ t = none ∧ t.isTrivia = true ∧ t.opensBlock = false) ∨ ∃ u, φ t = some u ∧ SameRole t u := by
  cases hφ : φ t with
  | none =>
    -- a token is dropped only where trivia opens no block
    have htrivia := h.drops t List.mem_cons_self hφ
    refine Or.inl ⟨rfl, htrivia, ?_⟩
    rcases h.quiet with hk | hq
    · have hsome := hk t List.mem_cons_self
      rw [hφ] at hsome
      exact absurd hsome Bool.false_ne_true
    · exact hq.head_trivia htrivia
  | some u => exact Or.inr ⟨u, rfl, h.keeps t List.mem_cons_self u hφ⟩

/-- What is not trivia is kept. -/
theorem kept (h : Reduces φ (t :: ts)) (ht : t.isTrivia = false) :
    ∃ u, φ t = some u ∧ SameRole t u := by
  rcases h.cons_cases with ⟨-, htrivia, -⟩ | hkept
  · rw [ht] at htrivia
    exact absurd htrivia Bool.false_ne_true
  · exact hkept

/-- What opens a block is kept. -/
theorem opened (h : Reduces φ (t :: ts)) (ho : t.opensBlock = true) :
    ∃ u, φ t = some u ∧ SameRole t u := by
  rcases h.cons_cases with ⟨-, -, hclosed⟩ | hkept
  · rw [ho] at hclosed
    exact absurd hclosed Bool.noConfusion
  · exact hkept

/-- Tokens in their roles open blocks where the old ones do. -/
theorem opensOutsideNames (h : Reduces φ ts) (hq : OpensOutsideNames ts) :
    OpensOutsideNames (ts.filterMap φ) := by
  intro u hu hin
  obtain ⟨t, ht, hφ⟩ := List.mem_filterMap.mp hu
  have hrole := h.keeps t ht u hφ
  rw [hrole.opensBlock]
  exact hq t ht (hrole.isInName ▸ hin)

end Reduces

/-- Dropping all trivia is a reduction, where no trivia opens a block. -/
theorem reduces_guard {ts : List Token} (h : OpensOutsideNames ts) :
    Reduces (Option.guard fun t => !t.isTrivia) ts where
  drops := fun t _ hφ => by simpa [Option.guard] using hφ
  keeps := fun t _ u hφ => by
    obtain ⟨rfl, -⟩ := Option.guard_eq_some_iff.mp hφ
    exact SameRole.refl t
  quiet := Or.inr h

theorem significant_eq_filterMap (ts : List Token) :
    significant ts = ts.filterMap (Option.guard fun t => !t.isTrivia) := by
  rw [List.filterMap_eq_filter]
  rfl

/-- Forgetting all that no mover looks at is a reduction. -/
theorem reduces_role (ts : List Token) : Reduces (fun t => some t.role) ts where
  drops := fun _ _ hφ => absurd hφ (Option.some_ne_none _)
  keeps := fun t _ _ hφ => Option.some.inj hφ ▸ sameRole_role t
  quiet := Or.inl fun _ _ => rfl

theorem filterMap_role_eq {ts us : List Token} (h : List.Forall₂ SameRole ts us) :
    us.filterMap (fun t => some t.role) = ts.filterMap fun t => some t.role := by
  induction h with
  | nil => rfl
  | @cons t u ts us hrole _ ih =>
    show u.role :: us.filterMap _ = t.role :: ts.filterMap _
    rw [ih, hrole.role_eq]

/-! ### Runs of tokens that trivia belongs to -/

variable {p : Token → Bool} {ts : List Token}

theorem dropWhile_filterMap_of_role (hp : ∀ t : Token, t.isTrivia = true → p t = true)
    (hr : ∀ t u : Token, SameRole t u → p u = p t) (h : Reduces φ ts) :
    (ts.filterMap φ).dropWhile p = (ts.dropWhile p).filterMap φ := by
  induction ts with
  | nil => rfl
  | cons t ts ih =>
    rcases h.cons_cases with ⟨hφ, ht, -⟩ | ⟨u, hφ, hrole⟩
    -- trivia belongs to the run, so the run goes on whether it is dropped or not
    · rw [List.filterMap_cons_none hφ, List.dropWhile_cons_of_pos (hp t ht), ih h.tail]
    · rw [List.filterMap_cons_some hφ, List.dropWhile_cons, List.dropWhile_cons, hr t u hrole]
      split
      · exact ih h.tail
      · rw [List.filterMap_cons_some hφ]

theorem takeWhile_filterMap_of_role (hp : ∀ t : Token, t.isTrivia = true → p t = true)
    (hr : ∀ t u : Token, SameRole t u → p u = p t) (h : Reduces φ ts) :
    (ts.filterMap φ).takeWhile p = (ts.takeWhile p).filterMap φ := by
  induction ts with
  | nil => rfl
  | cons t ts ih =>
    rcases h.cons_cases with ⟨hφ, ht, -⟩ | ⟨u, hφ, hrole⟩
    · rw [List.filterMap_cons_none hφ, List.takeWhile_cons_of_pos (hp t ht),
        List.filterMap_cons_none hφ, ih h.tail]
    · rw [List.filterMap_cons_some hφ, List.takeWhile_cons, List.takeWhile_cons, hr t u hrole]
      split
      · rw [List.filterMap_cons_some hφ, ih h.tail]
      · rfl

/-! ### The movers -/

theorem skipTrivia_filterMap (h : Reduces φ ts) :
    skipTrivia (ts.filterMap φ) = (skipTrivia ts).filterMap φ :=
  dropWhile_filterMap_of_role (fun _ => id) (fun _ _ hr => hr.isTrivia) h

theorem isTrivia_of_skipTrivia {t : Token} {rest : List Token} (h : skipTrivia ts = t :: rest) :
    t.isTrivia = false := by
  have hne : skipTrivia ts ≠ [] := by rw [h]; exact List.cons_ne_nil _ _
  have hhead : ((skipTrivia ts).head hne).isTrivia = false :=
    List.head_dropWhile_not isTrivia hne
  simpa only [h, List.head_cons] using hhead

/-- What trivia precedes is kept, and what follows it is reduced. -/
theorem skipTrivia_filterMap_cons (h : Reduces φ ts) {t : Token} {rest : List Token}
    (hs : skipTrivia ts = t :: rest) :
    ∃ u, φ t = some u ∧ SameRole t u ∧
      skipTrivia (ts.filterMap φ) = u :: rest.filterMap φ := by
  obtain ⟨u, hφ, hrole⟩ :=
    (h.of_suffix (hs ▸ skipTrivia_suffix ts)).kept (isTrivia_of_skipTrivia hs)
  refine ⟨u, hφ, hrole, ?_⟩
  rw [skipTrivia_filterMap h, hs, List.filterMap_cons_some hφ]

theorem skipTrivia_filterMap_nil (h : Reduces φ ts) (hs : skipTrivia ts = []) :
    skipTrivia (ts.filterMap φ) = [] := by
  rw [skipTrivia_filterMap h, hs, List.filterMap_nil]

/-- The parts of a name keep their texts. -/
theorem map_text_filterMap (h : Reduces φ ts) :
    ((ts.filterMap φ).filter isNamePart).map (·.text) = (ts.filter isNamePart).map (·.text) := by
  induction ts with
  | nil => rfl
  | cons t ts ih =>
    rcases h.cons_cases with ⟨hφ, ht, -⟩ | ⟨u, hφ, hrole⟩
    · have hpart : t.isNamePart = false := by
        rw [isTrivia, Bool.or_eq_true, beq_iff_eq, beq_iff_eq] at ht
        rcases ht with ht | ht <;> simp [isNamePart, ht]
      rw [List.filterMap_cons_none hφ, List.filter_cons_of_neg (by simp [hpart]), ih h.tail]
    · rw [List.filterMap_cons_some hφ, List.filter_cons, List.filter_cons, hrole.isNamePart]
      split
      · next hpart => rw [List.map_cons, List.map_cons, hrole.name hpart, ih h.tail]
      · exact ih h.tail

/-- What a run of tokens writes depends on the texts of its parts alone. -/
theorem nameText_congr {run other : List Token}
    (h : (run.filter isNamePart).map (·.text) = (other.filter isNamePart).map (·.text)) :
    nameText run = nameText other := by
  rw [nameText, nameText]
  cases hr : run.filter isNamePart with
  | nil =>
    rw [hr, List.map_nil, eq_comm, List.map_eq_nil_iff] at h
    rw [h]
  | cons a l =>
    cases ho : other.filter isNamePart with
    | nil =>
      rw [hr, ho] at h
      exact absurd h (by simp)
    | cons b m =>
      rw [hr, ho] at h
      simp only [h]

theorem collectName_filterMap (h : Reduces φ ts) :
    collectName (ts.filterMap φ) = (collectName ts).map id (List.filterMap φ) := by
  have hp : ∀ t : Token, t.isTrivia = true → t.isInName = true := fun t => isInName_of_isTrivia
  have hr : ∀ t u : Token, SameRole t u → u.isInName = t.isInName := fun t u hr => hr.isInName
  have hrun : Reduces φ (ts.takeWhile isInName) := h.of_subset (List.takeWhile_subset _)
  rw [collectName, takeWhile_filterMap_of_role hp hr h, dropWhile_filterMap_of_role hp hr h,
    nameText_congr (map_text_filterMap hrun)]
  rfl

/-- Where a name ends, no piece of it and no trivia follows. -/
theorem isInName_of_collectName {t : Token} {rest : List Token}
    (h : (collectName ts).2 = t :: rest) : t.isInName = false := by
  have hne : ts.dropWhile isInName ≠ [] := by
    intro hnil
    rw [collectName, hnil] at h
    exact List.cons_ne_nil _ _ h.symm
  have hhead := List.head_dropWhile_not isInName hne
  have heq : ts.dropWhile isInName = t :: rest := h
  simpa only [heq, List.head_cons] using hhead

theorem isTrivia_of_isInName {t : Token} (h : t.isInName = false) : t.isTrivia = false := by
  rw [isInName, Bool.or_eq_false_iff] at h
  exact h.2

theorem skipStatement_filterMap (h : Reduces φ ts) :
    skipStatement (ts.filterMap φ) = (skipStatement ts).filterMap φ := by
  induction ts with
  | nil => rfl
  | cons t ts ih =>
    rcases h.cons_cases with ⟨hφ, ht, ho⟩ | ⟨u, hφ, hrole⟩
    · rw [List.filterMap_cons_none hφ, skipStatement, isSemicolon_of_isTrivia ht, ho,
        closesBlock_of_isTrivia ht]
      exact ih h.tail
    · rw [List.filterMap_cons_some hφ, skipStatement, skipStatement, hrole.isSemicolon,
        hrole.opensBlock, hrole.closesBlock]
      split
      · rfl
      · split
        · rw [List.filterMap_cons_some hφ]
        · exact ih h.tail

theorem skipBalanced_filterMap (h : Reduces φ ts) (depth : Nat) :
    skipBalanced depth (ts.filterMap φ) = (skipBalanced depth ts).filterMap φ := by
  induction ts generalizing depth with
  | nil => rfl
  | cons t ts ih =>
    rcases h.cons_cases with ⟨hφ, ht, ho⟩ | ⟨u, hφ, hrole⟩
    -- what is dropped is no brace, and leaves the depth as it is
    · rw [List.filterMap_cons_none hφ, skipBalanced, ho, closesBlock_of_isTrivia ht]
      exact ih h.tail depth
    · rw [List.filterMap_cons_some hφ, skipBalanced, skipBalanced, hrole.opensBlock,
        hrole.closesBlock]
      split
      · exact ih h.tail _
      · split
        · split
          · rfl
          · exact ih h.tail _
        · exact ih h.tail _

end Reduction
end Token

open Token

namespace NamespaceHead

/-! ### Heads of namespaces -/

section Heads

variable {φ : Token → Option Token} {ts : List Token}

theorem isRelative_filterMap (h : Reduces φ ts) :
    isRelative (ts.filterMap φ) = isRelative ts := by
  cases hs : skipTrivia ts with
  | nil => rw [isRelative, isRelative, skipTrivia_filterMap_nil h hs, hs]
  | cons t rest =>
    obtain ⟨u, -, hrole, heq⟩ := skipTrivia_filterMap_cons h hs
    rw [isRelative, isRelative, heq, hs]
    show (u.kind == .separator) = (t.kind == .separator)
    rw [hrole.kind]

theorem dropEnd_filterMap (h : Reduces φ ts) :
    dropEnd ((collectName ts).2.filterMap φ) = (dropEnd (collectName ts).2).filterMap φ := by
  cases hc : (collectName ts).2 with
  | nil => rfl
  | cons t rest =>
    have ht : t.isTrivia = false := isTrivia_of_isInName (isInName_of_collectName hc)
    obtain ⟨u, hφ, hrole⟩ := (h.of_suffix (hc ▸ collectName_suffix ts)).kept ht
    rw [List.filterMap_cons_some hφ, dropEnd, dropEnd, hrole.isSemicolon, hrole.opensBlock]
    split
    · rfl
    · rw [List.filterMap_cons_some hφ]

theorem read_filterMap (h : Reduces φ ts) :
    read (ts.filterMap φ) = ⟨(read ts).declared, (read ts).rest.filterMap φ⟩ := by
  rw [read, read, isRelative_filterMap h]
  split
  · rw [skipTrivia_filterMap h]
  · rw [collectName_filterMap h, Prod.map_fst, Prod.map_snd, dropEnd_filterMap h]
    rfl

/-- The last of the tokens taken decides whether a block is opened. -/
theorem opensBlock_of_eq {taken rest : List Token} (h : ts = taken ++ rest)
    (declared : Option String) :
    opensBlock ts ⟨declared, rest⟩ = taken.getLast?.any Token.opensBlock := by
  simp [opensBlock, h]

theorem getLast?_any_opensBlock (h : ∀ t ∈ ts, t.opensBlock = false) :
    ts.getLast?.any Token.opensBlock = false := by
  cases hl : ts.getLast? with
  | none => rfl
  | some t => exact h t (List.mem_of_getLast? hl)

/-- A head opens a block when it declares a namespace and an opening brace follows the
name. -/
theorem opensBlock_eq (h : OpensOutsideNames ts) :
    (read ts).opensBlock ts
      = (!isRelative ts && (collectName ts).2.head?.any Token.opensBlock) := by
  have hquiet : ∀ p : Token → Bool, (∀ t, p t = true → t.isInName = true) →
      (ts.takeWhile p).getLast?.any Token.opensBlock = false := fun p hp =>
    getLast?_any_opensBlock fun t ht =>
      h t (List.takeWhile_subset _ ht) (hp t (List.mem_takeWhile_imp ht))
  have hsplit : ∀ p : Token → Bool, ts = ts.takeWhile p ++ ts.dropWhile p := fun p =>
    List.takeWhile_append_dropWhile.symm
  rw [read]
  split
  · next hrel =>
    have hskip : ts = ts.takeWhile isTrivia ++ skipTrivia ts := hsplit isTrivia
    rw [opensBlock_of_eq hskip, hrel]
    exact hquiet isTrivia fun t => isInName_of_isTrivia
  · next hrel =>
    rw [Bool.not_eq_true] at hrel
    rw [hrel, Bool.not_false, Bool.true_and]
    have hname : ts = ts.takeWhile isInName ++ (collectName ts).2 := hsplit isInName
    have hlast := hquiet isInName fun _ => id
    cases hrest : (collectName ts).2 with
    | nil =>
      rw [hrest] at hname
      rw [dropEnd, opensBlock_of_eq hname, hlast]
      rfl
    | cons t rest =>
      rw [hrest] at hname
      rw [dropEnd]
      split
      · -- the token after the name is taken, and it is the last one
        have hname' : ts = (ts.takeWhile isInName ++ [t]) ++ rest := by
          rw [List.append_assoc]; exact hname
        rw [opensBlock_of_eq hname', List.getLast?_concat]
        rfl
      · next hend =>
        rw [opensBlock_of_eq hname, hlast]
        rw [Bool.not_eq_true, Bool.or_eq_false_iff] at hend
        exact hend.2.symm

/-- Where no token is dropped, the last of the tokens taken keeps its role. -/
theorem getLast?_filterMap_any (h : Reduces φ ts) (hk : ∀ t ∈ ts, (φ t).isSome = true) :
    (ts.filterMap φ).getLast?.any Token.opensBlock = ts.getLast?.any Token.opensBlock := by
  rcases List.eq_nil_or_concat ts with rfl | ⟨init, t, rfl⟩
  · rfl
  · have ht : t ∈ init.concat t := by rw [List.concat_eq_append]; simp
    obtain ⟨u, hφ⟩ := Option.isSome_iff_exists.mp (hk t ht)
    have hrole := h.keeps t ht u hφ
    rw [List.concat_eq_append, List.filterMap_append, List.filterMap_cons_some hφ,
      List.filterMap_nil, List.getLast?_concat, List.getLast?_concat]
    exact hrole.opensBlock

theorem opensBlock_filterMap (h : Reduces φ ts) :
    (read (ts.filterMap φ)).opensBlock (ts.filterMap φ) = (read ts).opensBlock ts := by
  -- if nothing is dropped, the last token taken stays the last one; otherwise no trivia opens a
  -- block, and the token after the name decides
  rcases h.quiet with hk | hq
  · obtain ⟨taken, htaken⟩ := read_suffix ts
    have hfilter : ts.filterMap φ = taken.filterMap φ ++ (read ts).rest.filterMap φ := by
      rw [← List.filterMap_append, htaken]
    have hsub : taken ⊆ ts := fun t ht => htaken ▸ List.mem_append_left _ ht
    rw [read_filterMap h, opensBlock_of_eq hfilter,
      getLast?_filterMap_any (h.of_subset hsub) fun t ht => hk t (hsub ht)]
    exact (opensBlock_of_eq htaken.symm (read ts).declared).symm
  · rw [opensBlock_eq hq, opensBlock_eq (h.opensOutsideNames hq), isRelative_filterMap h,
      collectName_filterMap h, Prod.map_snd]
    cases hc : (collectName ts).2 with
    | nil => rfl
    | cons t rest =>
      have ht : t.isTrivia = false := isTrivia_of_isInName (isInName_of_collectName hc)
      obtain ⟨u, hφ, hrole⟩ := (h.of_suffix (hc ▸ collectName_suffix ts)).kept ht
      rw [List.filterMap_cons_some hφ]
      show (_ && u.opensBlock) = (_ && t.opensBlock)
      rw [hrole.opensBlock]

end Heads

end NamespaceHead
end ClassLineage
