import ClassLineage.Proofs.Token.Block

/-!
# Where statements end

No mover passes the semicolon that ends a list of tokens without stopping at it or behind it.
So on tokens that end with a semicolon each mover does the same whatever follows them, and what
follows is left as it is.  And no mover but the one that skips blocks takes a brace that closes
a block: whatever was open stays open.

## Main definitions

* `EndsStatement` — the tokens end with a semicolon.
* `LeavesOpen` — what is taken of the tokens closes no block.
* `KeepsOpen` — what is taken of the tokens closes no block that was open before it.

## Main results

* `EndsStatement.dropWhile_append`, `EndsStatement.collectName_append`,
  `EndsStatement.skipStatement_append` — the movers stop where a statement ends.
* `EndsStatement.read_append`, `EndsStatement.opensBlock_append` — so do heads of namespaces.
* `LeavesOpen.keepsOpen` — what was open stays open.
-/

namespace ClassLineage
namespace Token

/-- The tokens end with a semicolon, so that a statement ends where they do. -/
def EndsStatement (ts : List Token) : Prop := ∃ stop ∈ ts.getLast?, stop.isSemicolon = true

/-- What is taken of the tokens `ts` before `rest` closes no block. -/
def LeavesOpen (ts rest : List Token) : Prop :=
  ∃ taken, ts = taken ++ rest ∧ ∀ t ∈ taken, t.closesBlock = false

/-- Where the braces of the tokens `ts` match, those of `rest` do, and no fewer blocks are open
before them. -/
def KeepsOpen (ts rest : List Token) : Prop :=
  ∀ depth, BracesMatch depth ts → ∃ deeper, depth ≤ deeper ∧ BracesMatch deeper rest

namespace EndsStatement

variable {t : Token} {ts us : List Token}

theorem concat (ts : List Token) {stop : Token} (hs : stop.isSemicolon = true) :
    EndsStatement (ts ++ [stop]) := ⟨stop, List.getLast?_concat, hs⟩

theorem ne_nil (h : EndsStatement ts) : ts ≠ [] := by
  rintro rfl
  obtain ⟨stop, hstop, -⟩ := h
  exact absurd hstop (by simp)

theorem exists_mem (h : EndsStatement ts) : ∃ stop ∈ ts, stop.isSemicolon = true := by
  obtain ⟨stop, hstop, hs⟩ := h
  exact ⟨stop, List.mem_of_getLast? hstop, hs⟩

/-- What is left of the tokens ends with the same semicolon. -/
theorem of_suffix (h : EndsStatement ts) (hs : us <:+ ts) (hne : us ≠ []) : EndsStatement us := by
  obtain ⟨stop, hstop, hsemi⟩ := h
  obtain ⟨taken, rfl⟩ := hs
  refine ⟨stop, ?_, hsemi⟩
  rwa [List.getLast?_append_of_ne_nil _ hne] at hstop

theorem suffix_cases (h : EndsStatement ts) (hs : us <:+ ts) : us = [] ∨ EndsStatement us :=
  or_iff_not_imp_left.mpr (h.of_suffix hs)

/-- A token that is no semicolon is not the last one. -/
theorem tail (h : EndsStatement (t :: ts)) (ht : ¬t.isSemicolon = true) : EndsStatement ts := by
  refine h.of_suffix (List.suffix_cons t ts) ?_
  rintro rfl
  obtain ⟨stop, hstop, hs⟩ := h
  rw [List.getLast?_singleton, Option.mem_some_iff] at hstop
  exact ht (hstop ▸ hs)

theorem tail_of_isKeyword (h : EndsStatement (t :: ts)) {k : Keyword}
    (hk : t.isKeyword k = true) : EndsStatement ts :=
  h.tail (Bool.eq_false_iff.mp (isSymbol_of_isKeyword hk _))

theorem tail_of_isNamePart (h : EndsStatement (t :: ts)) (hn : t.isNamePart = true) :
    EndsStatement ts :=
  h.tail (Bool.eq_false_iff.mp (isSymbol_of_isNamePart hn _))

/-- Behind a run of tokens that are no semicolons, the tokens still end with one. -/
theorem dropWhile (h : EndsStatement ts) {p : Token → Bool}
    (hp : ∀ t : Token, t.isSemicolon = true → p t = false) : EndsStatement (ts.dropWhile p) := by
  refine h.of_suffix (List.dropWhile_suffix p) fun hnil => ?_
  obtain ⟨stop, hmem, hs⟩ := h.exists_mem
  have hrun := List.dropWhile_eq_nil_iff.mp hnil stop hmem
  rw [hp stop hs] at hrun
  exact Bool.false_ne_true hrun

/-- **A run of tokens that are no semicolons stops where a statement ends.** -/
theorem dropWhile_append (h : EndsStatement ts) {p : Token → Bool}
    (hp : ∀ t : Token, t.isSemicolon = true → p t = false) (us : List Token) :
    (ts ++ us).dropWhile p = ts.dropWhile p ++ us := by
  have hne := (h.dropWhile hp).ne_nil
  rw [List.dropWhile_append, if_neg (by simpa using hne)]

theorem takeWhile_append (h : EndsStatement ts) {p : Token → Bool}
    (hp : ∀ t : Token, t.isSemicolon = true → p t = false) (us : List Token) :
    (ts ++ us).takeWhile p = ts.takeWhile p := by
  have hlen := congrArg List.length
    (List.takeWhile_append_dropWhile (p := p) (l := ts))
  have hne := List.length_pos_iff.mpr (h.dropWhile hp).ne_nil
  rw [List.length_append] at hlen
  rw [List.takeWhile_append, if_neg (by omega)]

end EndsStatement

/-! ### Movers -/

theorem isTrivia_of_isSemicolon {t : Token} (h : t.isSemicolon = true) : t.isTrivia = false :=
  isTrivia_of_isSymbol h

theorem isInName_of_isSemicolon {t : Token} (h : t.isSemicolon = true) : t.isInName = false :=
  isInName_of_isSymbol h

namespace EndsStatement

variable {t : Token} {ts rest : List Token}

theorem skipTrivia_append (h : EndsStatement ts) (us : List Token) :
    skipTrivia (ts ++ us) = skipTrivia ts ++ us :=
  h.dropWhile_append (fun _ => isTrivia_of_isSemicolon) us

/-- Before the end of a statement there is more than trivia. -/
theorem exists_skipTrivia (h : EndsStatement ts) :
    ∃ t rest, skipTrivia ts = t :: rest ∧ EndsStatement (t :: rest) := by
  have hskip : EndsStatement (skipTrivia ts) := h.dropWhile fun _ => isTrivia_of_isSemicolon
  obtain ⟨t, rest, heq⟩ := List.exists_cons_of_ne_nil hskip.ne_nil
  exact ⟨t, rest, heq, heq ▸ hskip⟩

/-- The first token after trivia is the same whatever follows the statement. -/
theorem of_skipTrivia (h : EndsStatement ts) {t : Token} (hs : skipTrivia ts = t :: rest)
    (us : List Token) :
    skipTrivia (ts ++ us) = t :: (rest ++ us) ∧ EndsStatement (t :: rest) := by
  have hleft : EndsStatement (skipTrivia ts) := h.dropWhile fun _ => isTrivia_of_isSemicolon
  rw [h.skipTrivia_append, hs, List.cons_append]
  exact ⟨rfl, hs ▸ hleft⟩

theorem collectName_append (h : EndsStatement ts) (us : List Token) :
    collectName (ts ++ us) = ((collectName ts).1, (collectName ts).2 ++ us) := by
  rw [collectName, h.takeWhile_append (fun _ => isInName_of_isSemicolon),
    h.dropWhile_append fun _ => isInName_of_isSemicolon]
  rfl

theorem collectName_rest (h : EndsStatement ts) : EndsStatement (collectName ts).2 :=
  h.dropWhile fun _ => isInName_of_isSemicolon

/-- The name at the start is the same whatever follows the statement. -/
theorem of_collectName (h : EndsStatement ts) {name : Option String} {after : List Token}
    (hn : collectName ts = (name, after)) (us : List Token) :
    collectName (ts ++ us) = (name, after ++ us) ∧ EndsStatement after := by
  have happend := h.collectName_append us
  have hrest := h.collectName_rest
  rw [hn] at happend hrest
  exact ⟨happend, hrest⟩

theorem skipStatement_append (h : EndsStatement ts) (us : List Token) :
    skipStatement (ts ++ us) = skipStatement ts ++ us := by
  induction ts with
  | nil => exact absurd rfl h.ne_nil
  | cons t ts ih =>
    rw [List.cons_append, skipStatement, skipStatement]
    by_cases hs : t.isSemicolon = true
    · rw [if_pos hs, if_pos hs]
    by_cases hb : (t.opensBlock || t.closesBlock) = true
    · rw [if_neg hs, if_neg hs, if_pos hb, if_pos hb, List.cons_append]
    · rw [if_neg hs, if_neg hs, if_neg hb, if_neg hb]
      exact ih (h.tail hs)

/-! ### Heads of namespaces -/

theorem isRelative_append (h : EndsStatement ts) (us : List Token) :
    NamespaceHead.isRelative (ts ++ us) = NamespaceHead.isRelative ts := by
  obtain ⟨t, rest, heq, -⟩ := h.exists_skipTrivia
  rw [NamespaceHead.isRelative, NamespaceHead.isRelative, h.skipTrivia_append, heq]
  rfl

theorem dropEnd_append (h : EndsStatement ts) (us : List Token) :
    NamespaceHead.dropEnd (ts ++ us) = NamespaceHead.dropEnd ts ++ us := by
  cases ts with
  | nil => exact absurd rfl h.ne_nil
  | cons t ts =>
    rw [List.cons_append, NamespaceHead.dropEnd, NamespaceHead.dropEnd]
    by_cases hend : (t.isSemicolon || t.opensBlock) = true
    · rw [if_pos hend, if_pos hend]
    · rw [if_neg hend, if_neg hend, List.cons_append]

/-- **The head of a namespace stops where a statement ends.** -/
theorem read_append (h : EndsStatement ts) (us : List Token) :
    NamespaceHead.read (ts ++ us)
      = ⟨(NamespaceHead.read ts).declared, (NamespaceHead.read ts).rest ++ us⟩ := by
  rw [NamespaceHead.read, NamespaceHead.read, h.isRelative_append]
  by_cases hrel : NamespaceHead.isRelative ts = true
  · rw [if_pos hrel, if_pos hrel, h.skipTrivia_append]
  · rw [if_neg hrel, if_neg hrel, h.collectName_append, h.collectName_rest.dropEnd_append]

theorem opensBlock_append (h : EndsStatement ts) (us : List Token) :
    (NamespaceHead.read (ts ++ us)).opensBlock (ts ++ us)
      = (NamespaceHead.read ts).opensBlock ts := by
  obtain ⟨taken, htaken⟩ := NamespaceHead.read_suffix ts
  have hall : ts ++ us = taken ++ ((NamespaceHead.read ts).rest ++ us) := by
    rw [← List.append_assoc, htaken]
  rw [h.read_append, NamespaceHead.opensBlock_of_eq hall]
  exact (NamespaceHead.opensBlock_of_eq htaken.symm (NamespaceHead.read ts).declared).symm

end EndsStatement

/-! ### What stays open -/

namespace LeavesOpen

variable {t : Token} {ts us rest : List Token}

theorem refl (ts : List Token) : LeavesOpen ts ts :=
  ⟨[], rfl, fun _ ht => absurd ht List.not_mem_nil⟩

theorem trans (h : LeavesOpen ts us) (h' : LeavesOpen us rest) : LeavesOpen ts rest := by
  obtain ⟨taken, rfl, hc⟩ := h
  obtain ⟨more, rfl, hc'⟩ := h'
  refine ⟨taken ++ more, (List.append_assoc _ _ _).symm, fun t ht => ?_⟩
  rcases List.mem_append.mp ht with ht | ht
  · exact hc t ht
  · exact hc' t ht

theorem cons (ht : t.closesBlock = false) (ts : List Token) : LeavesOpen (t :: ts) ts :=
  ⟨[t], rfl, fun _ hu => List.mem_singleton.mp hu ▸ ht⟩

/-- A run of tokens that close no block. -/
theorem dropWhile {p : Token → Bool} (hp : ∀ t : Token, p t = true → t.closesBlock = false)
    (ts : List Token) : LeavesOpen ts (ts.dropWhile p) :=
  ⟨ts.takeWhile p, List.takeWhile_append_dropWhile.symm, fun t ht =>
    hp t (List.mem_takeWhile_imp ht)⟩

/-- **What was open stays open,** and more may have been opened. -/
theorem keepsOpen (h : LeavesOpen ts rest) : KeepsOpen ts rest := by
  intro depth hb
  obtain ⟨taken, rfl, hc⟩ := h
  refine ⟨_, ?_, hb.of_append.2⟩
  rw [closings_eq_zero hc]
  omega

theorem skipTrivia (ts : List Token) : LeavesOpen ts (skipTrivia ts) :=
  dropWhile (fun _ => closesBlock_of_isTrivia) ts

theorem collectName (ts : List Token) : LeavesOpen ts (collectName ts).2 :=
  dropWhile (fun _ h => isSymbol_of_isInName h _) ts

theorem of_collectName {after : List Token} {name : Option String}
    (hn : Token.collectName ts = (name, after)) : LeavesOpen ts after := by
  have hopen := collectName ts
  rwa [hn] at hopen

theorem skipStatement (ts : List Token) : LeavesOpen ts (skipStatement ts) := by
  fun_induction Token.skipStatement ts with
  | case1 => exact refl []
  | case2 t ts hs => exact cons (closesBlock_of_isSemicolon hs) ts
  | case3 t ts => exact refl (t :: ts)
  | case4 t ts _ hb ih =>
    rw [Bool.not_eq_true, Bool.or_eq_false_iff] at hb
    exact (cons hb.2 ts).trans ih

theorem namespaceHead (ts : List Token) : LeavesOpen ts (NamespaceHead.read ts).rest := by
  obtain ⟨taken, hsplit, htaken⟩ := NamespaceHead.read_taken ts
  refine ⟨taken, hsplit, fun t ht => ?_⟩
  rcases htaken t ht with hin | hs | ho
  · exact isSymbol_of_isInName hin _
  · exact closesBlock_of_isSemicolon hs
  · exact closesBlock_of_opensBlock ho

end LeavesOpen

theorem KeepsOpen.trans {ts us rest : List Token} (h : KeepsOpen ts us) (h' : KeepsOpen us rest) :
    KeepsOpen ts rest := by
  intro depth hb
  obtain ⟨outer, houter, hus⟩ := h depth hb
  obtain ⟨deeper, hdeeper, hrest⟩ := h' outer hus
  exact ⟨deeper, houter.trans hdeeper, hrest⟩

/-- A block that is opened first may be closed last. -/
theorem LeavesOpen.keepsOpen_block {o c : Token} {ts rest : List Token} (ho : o.opensBlock = true)
    (hc : c.closesBlock = true) (h : LeavesOpen ts (c :: rest)) : KeepsOpen (o :: ts) rest := by
  intro depth hb
  obtain ⟨inner, hinner, hclosed⟩ := h.keepsOpen _ (hb.tail_of_opensBlock ho)
  obtain ⟨-, hrest⟩ := hclosed.tail_of_closesBlock hc
  exact ⟨inner - 1, by omega, hrest⟩

/-- Where a head opens a block, one more is open behind it. -/
theorem BracesMatch.namespaceHead {ts : List Token} {depth : Nat} (h : BracesMatch depth ts)
    (ho : (NamespaceHead.read ts).opensBlock ts = true) :
    ∃ deeper, depth + 1 ≤ deeper ∧ BracesMatch deeper (NamespaceHead.read ts).rest := by
  obtain ⟨taken, htaken, hc⟩ := LeavesOpen.namespaceHead ts
  have hlast : taken.getLast?.any Token.opensBlock = true := by
    rwa [← NamespaceHead.opensBlock_of_eq htaken (NamespaceHead.read ts).declared]
  obtain ⟨o, hmem, hopens⟩ := (Option.any_eq_true _ _).mp hlast
  have hpos : 0 < openings taken :=
    List.countP_pos_iff.mpr ⟨o, List.mem_of_getLast? hmem, hopens⟩
  rw [htaken] at h
  refine ⟨_, ?_, h.of_append.2⟩
  rw [closings_eq_zero hc]
  omega

end Token
end ClassLineage
