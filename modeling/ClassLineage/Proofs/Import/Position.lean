import ClassLineage.Proofs.Import.Grammar
import ClassLineage.Proofs.Token.Position

/-!
# Imports through positions

The readers of imports as loops over positions.  A loop of theirs may get back the position that
it gave away: where no name is, where an alias has none, and where a member of a group that names
no class ends.  It goes on only after a token that it has taken, and leaves at one otherwise,
which the loop of the file takes.

## Main definitions

* `Import.readAliasAt`, `Import.skipMemberAt`, `Import.readGroupAt`, `Import.readUseAt` — the
  readers at positions.
* `ImportTable.ofTokensAt` — the imports of a file, read at positions.

## Main results

* `Import.follows_groupLoop`, `Import.follows_clausesLoop` — groups and statements.
* `ImportTable.follows_importLoop` — **the loop of the file.**
* `ImportTable.finds_ofTokensAt` — it gives the imports of the file.
-/

namespace ClassLineage

open Token

namespace Import

/-! ### Aliases and members -/

/-- `readAlias` at a position. -/
def readAliasAt (ts : List Token) (i : Nat) : Option (Option String × Nat) := do
  let start ← skipTriviaAt ts i
  if ← testAt (·.isKeyword .asWord) ts start.2 then
    let name ← skipTriviaAt ts (start.2 + 1)
    lookAt ts name.2 (none, name.2) fun t =>
      some (if t.kind == .name then (some t.text, name.2 + 1) else (none, name.2))
  else
    return (none, start.2)

/-- Passes over what is left of a member of a group. -/
def memberLoop (ts : List Token) : Loop Unit Unit where
  round _ i := lookAt ts i (.leave () i) fun t =>
    some (if t.isComma || t.closesBlock || t.isSemicolon then .leave () i else .again () (i + 1))

/-- `skipMember` at a position. -/
def skipMemberAt (ts : List Token) (i : Nat) : Option (Unit × Nat) := (memberLoop ts).stop? ts () i

variable {ts us : List Token} {i : Nat}

theorem finds_readAliasAt (h : ts.drop i = us) :
    Finds ts i (readAliasAt ts i) (readAlias us) := by
  refine (finds_skipTriviaAt h).bind fun j hj => ?_
  dsimp only
  rw [testAt_bind hj.drop, readAlias]
  cases hs : skipTrivia us with
  | nil => exact .here (hj.drop.trans hs) none
  | cons t rest =>
    have hstep : Lands ts j rest (j + 1) := .succ (hj.drop.trans hs)
    rw [List.head?_cons, Option.any_some]
    dsimp only
    split
    · refine .of_trans hstep ((finds_skipTriviaAt hstep.drop).bind fun k hk => ?_)
      refine .lookAt (fun h => ?_) fun n more h => ?_
      · rw [← hk.drop, h]
        exact .here h none
      · rw [← hk.drop, h]
        dsimp only
        split
        · exact .after h _
        · exact .here h none
    · exact .here (hj.drop.trans hs) none

theorem follows_memberLoop (ts : List Token) :
    (memberLoop ts).Follows ts fun _ rest => ((), skipMember rest) := by
  refine fun _ i => .lookAt (fun h => .leave_here h rfl) fun t rest h => ?_
  split
  · next ht => exact .leave_here h (by rw [skipMember, List.dropWhile_cons_of_neg (by simp [ht])])
  · next ht =>
    exact .pass h (by rw [skipMember, skipMember, List.dropWhile_cons_of_pos (by simp [ht])])

theorem finds_skipMemberAt (h : ts.drop i = us) :
    Finds ts i (skipMemberAt ts i) ((), skipMember us) := (follows_memberLoop ts).finds h ()

/-! ### Groups -/

/-- Imports the members of a group. -/
def groupLoop (base : String) (ts : List Token) : Loop ImportTable ImportTable where
  round imports i :=
    if i < ts.length then do
      let start ← skipTriviaAt ts i
      let j := start.2
      lookAt ts j (.leave imports j) fun t =>
        if t.closesBlock then some (.leave imports (j + 1))
        else if t.isComma then some (.again imports (j + 1))
        else if isOtherImport t then do
          let left ← skipMemberAt ts j
          return .again imports left.2
        else do
          let name ← collectNameAt ts j
          match name.1 with
          | none => return if t.isSemicolon then .leave imports j else .again imports (j + 1)
          | some text =>
            let given ← readAliasAt ts name.2
            let member := Name.trimSeparators text
            let full := if base = "" then member else base ++ Name.separator ++ member
            return .again (add given.1 member full imports) given.2
    else some (.leave imports i)

/-- `readGroup` at a position. -/
def readGroupAt (base : String) (imports : ImportTable) (ts : List Token) (i : Nat) :
    Option (ImportTable × Nat) := (groupLoop base ts).stop? ts imports i

/-- A member that names no class is not passed over by its first token. -/
theorem skipMember_of_isOtherImport {t : Token} (h : isOtherImport t = true) (rest : List Token) :
    skipMember (t :: rest) = skipMember rest := by
  have hstop : (t.isComma || t.closesBlock || t.isSemicolon) = false := by
    rw [isOtherImport, Bool.or_eq_true] at h
    rcases h with h | h <;>
      simp [isComma, closesBlock, isSemicolon, isSymbol_of_isKeyword h]
  rw [skipMember, skipMember, List.dropWhile_cons_of_pos (by rw [hstop]; rfl)]

theorem follows_groupLoop (base : String) (ts : List Token) :
    (groupLoop base ts).Follows ts fun imports rest => readGroup base rest imports := by
  intro imports i
  rw [groupLoop]
  dsimp only
  split
  · next hi =>
    refine .bind (finds_skipTriviaAt rfl) fun j hj => .lookAt (fun h => ?_) fun t rest h => ?_
    · have hs : skipTrivia (ts.drop i) = [] := hj.drop.symm.trans h
      exact .leave (hs ▸ hj) (readGroup_of_nil base imports hs)
    · have hs : skipTrivia (ts.drop i) = t :: rest := hj.drop.symm.trans h
      have hlands : Lands ts i rest (j + 1) := hj.trans (.succ h)
      have hlt := length_lt_of_skipTrivia hs
      have hread := readGroup_of_cons base imports hs
      split
      · next hc =>
        rw [if_pos hc] at hread
        exact .leave hlands hread
      next hc =>
      rw [if_neg hc] at hread
      split
      · next hcomma =>
        rw [if_pos hcomma] at hread
        exact .again hlands hlt hread.symm
      next hcomma =>
      rw [if_neg hcomma] at hread
      split
      · next ho =>
        rw [if_pos ho] at hread
        refine .bind (finds_skipMemberAt h) fun k hk => ?_
        rw [skipMember_of_isOtherImport ho] at hk
        exact .again (hj.trans hk) ((skipMember_suffix rest).length_le.trans_lt hlt) hread.symm
      next ho =>
      rw [if_neg ho] at hread
      have hname := finds_collectNameAt h
      generalize hcollect : collectName (t :: rest) = out at hname hread
      obtain ⟨name, after⟩ := out
      refine .bind hname fun k hk => ?_
      cases name with
      | none =>
        dsimp only at hread ⊢
        split
        · next hsemi =>
          rw [if_pos hsemi] at hread
          exact .leave (hs ▸ hj) hread
        · next hsemi =>
          rw [if_neg hsemi] at hread
          exact .again hlands hlt hread.symm
      | some text =>
        refine .bind (finds_readAliasAt hk.drop).eta fun l hl => ?_
        have hshort := (length_readAlias_lt hcollect).trans_le hlt
        exact .again ((hj.trans hk).trans hl) hshort hread.symm
  · next hi =>
    have hnil : ts.drop i = [] := List.drop_eq_nil_of_le (Nat.le_of_not_lt hi)
    exact .leave_here hnil (readGroup_of_nil base imports rfl)

theorem finds_readGroupAt (h : ts.drop i = us) (base : String) (imports : ImportTable) :
    Finds ts i (readGroupAt base imports ts i) (readGroup base us imports) :=
  (follows_groupLoop base ts).finds h imports

/-! ### Statements -/

/-- Imports the names of a statement, and leaves it at its end. -/
def clausesLoop (ts : List Token) : Loop ImportTable ImportTable where
  round imports i :=
    if i < ts.length then do
      let name ← collectNameAt ts i
      match name.1 with
      | none =>
        let stop ← skipStatementAt ts name.2
        return .leave imports stop.2
      | some text =>
        let base := Name.trimSeparators text
        let start ← skipTriviaAt ts name.2
        if ← testAt Token.opensBlock ts start.2 then
          let group ← readGroupAt base imports ts (start.2 + 1)
          let stop ← skipStatementAt ts group.2
          return .leave group.1 stop.2
        else
          let given ← readAliasAt ts start.2
          let added := add given.1 base base imports
          let left ← skipTriviaAt ts given.2
          if ← testAt Token.isComma ts left.2 then
            return .again added (left.2 + 1)
          else
            let stop ← skipStatementAt ts left.2
            return .leave added stop.2
    else do
      let stop ← skipStatementAt ts i
      return .leave imports stop.2

/-- `readUse` at a position. -/
def readUseAt (imports : ImportTable) (ts : List Token) (i : Nat) : Option (ImportTable × Nat) := do
  let start ← skipTriviaAt ts i
  lookAt ts start.2 (imports, start.2) fun t =>
    if isOtherImport t then do
      let stop ← skipStatementAt ts start.2
      return (imports, stop.2)
    else (clausesLoop ts).stop? ts imports start.2

/-- No trivia follows what is collected of a name. -/
theorem skipTrivia_of_collectName {after : List Token} {name : Option String}
    (h : collectName ts = (name, after)) : skipTrivia after = after := by
  cases after with
  | nil => rfl
  | cons t rest =>
    have hin := isInName_of_collectName (congrArg Prod.snd h)
    exact skipTrivia_cons (isTrivia_of_isInName hin) rest

/-- After a name and its alias, a comma goes on, and anything else ends the statement. -/
theorem tracked_clauseEnd {imports added : ImportTable} {left : List Token} {l : Nat}
    (h : Lands ts i left l) (hlt : left.length < (ts.drop i).length)
    (hread : readClauses (ts.drop i) imports =
      match skipTrivia left with
      | [] => (added, [])
      | t :: rest =>
        if t.isComma then readClauses rest added else (added, skipStatement (t :: rest))) :
    Tracked ts (fun imports rest => readClauses rest imports) imports i (do
      let start ← skipTriviaAt ts l
      if ← testAt Token.isComma ts start.2 then
        return .again added (start.2 + 1)
      else
        let stop ← skipStatementAt ts start.2
        return .leave added stop.2) := by
  refine .bind (finds_skipTriviaAt h.drop) fun m hm => ?_
  dsimp only
  rw [testAt_bind hm.drop]
  have hlands := h.trans hm
  have hstop := finds_skipStatementAt hm.drop
  cases hs : skipTrivia left with
  | nil =>
    rw [hs] at hread hstop
    exact .bind hstop fun n hn => .leave (hlands.trans hn) hread
  | cons t rest =>
    rw [hs] at hread hstop hlands
    rw [List.head?_cons, Option.any_some]
    dsimp only at hread
    split
    · next hcomma =>
      rw [if_pos hcomma] at hread
      have hstep : Lands ts i rest (m + 1) := hlands.trans (.succ hlands.drop)
      exact .again hstep ((length_lt_of_skipTrivia hs).trans hlt) hread.symm
    · next hcomma =>
      rw [if_neg hcomma] at hread
      exact .bind hstop fun n hn => .leave (hlands.trans hn) hread

theorem follows_clausesLoop (ts : List Token) :
    (clausesLoop ts).Follows ts fun imports rest => readClauses rest imports := by
  intro imports i
  rw [clausesLoop]
  dsimp only
  split
  · next hi =>
    have hread := readClauses_eq (ts.drop i) imports
    refine .bind (finds_collectNameAt rfl).eta fun j hj => ?_
    generalize hcollect : collectName (ts.drop i) = out at hread hj
    obtain ⟨name, after⟩ := out
    cases name with
    | none =>
      exact .bind (finds_skipStatementAt hj.drop) fun k hk => .leave (hj.trans hk) hread
    | some text =>
      dsimp only at hread ⊢
      have hstart := finds_skipTriviaAt hj.drop
      rw [skipTrivia_of_collectName hcollect] at hstart
      refine .bind hstart fun k hk => ?_
      have hafter := hj.trans hk
      dsimp only
      rw [testAt_bind hk.drop]
      split
      · next ho =>
        rw [if_pos ho] at hread
        cases after with
        | nil => exact absurd ho Bool.false_ne_true
        | cons o rest =>
          have hopen : Lands ts i rest (k + 1) := hafter.trans (.succ hk.drop)
          refine .bind (finds_readGroupAt hopen.drop _ imports).eta fun l hl => ?_
          have hlands := hopen.trans hl
          exact .bind (finds_skipStatementAt hl.drop) fun m hm => .leave (hlands.trans hm) hread
      · next ho =>
        rw [if_neg ho] at hread
        refine .bind (finds_readAliasAt hk.drop).eta fun l hl => ?_
        exact tracked_clauseEnd (hafter.trans hl) (length_readAlias_lt hcollect) hread
  · next hi =>
    have hnil : ts.drop i = [] := List.drop_eq_nil_of_le (Nat.le_of_not_lt hi)
    have hread := readClauses_eq [] imports
    refine .bind (finds_skipStatementAt hnil) fun j hj => .leave hj ?_
    rw [hnil, hread]
    rfl

theorem finds_readUseAt (h : ts.drop i = us) (imports : ImportTable) :
    Finds ts i (readUseAt imports ts i) (readUse us imports) := by
  refine (finds_skipTriviaAt h).bind fun j hj => .lookAt (fun hnil => ?_) fun t rest hcons => ?_
  · have hs : skipTrivia us = [] := hj.drop.symm.trans hnil
    rw [readUse, hs]
    exact .here hnil imports
  · have hs : skipTrivia us = t :: rest := hj.drop.symm.trans hcons
    rw [readUse, hs]
    dsimp only
    split
    · exact (finds_skipStatementAt hcons).bind fun k hk => .here hk.drop imports
    · exact (follows_clausesLoop ts).finds hcons imports

end Import

open Import

namespace ImportTable

/-! ### The loop of a file -/

/-- Collects the imports of a file, in a state that tells how many blocks are open, how many are
where statements count as imports, and what is imported. -/
def importLoop (ts : List Token) : Loop (Nat × Nat × ImportTable) ImportTable where
  round s i := lookAt ts i (.leave s.2.2 i) fun t =>
    if t.opensBlock then some (.again (s.1 + 1, s.2.1, s.2.2) (i + 1))
    else if t.closesBlock then some (.again (s.1 - 1, min s.2.1 (s.1 - 1), s.2.2) (i + 1))
    else if s.1 = 0 ∧ t.isKeyword .namespaceWord then do
      let head ← NamespaceHead.readAt ts (i + 1)
      -- the token before the position is read without a look at how many there are
      if 0 < head.2 then
        let last ← ts[head.2 - 1]?
        return .again (if last.opensBlock then (1, 1, s.2.2) else s) head.2
      else
        return .again s head.2
    else if s.1 = s.2.1 ∧ t.isKeyword .useWord then do
      let used ← readUseAt s.2.2 ts (i + 1)
      return .again (s.1, s.2.1, used.1) used.2
    else some (.again s (i + 1))

/-- The imports of a file, read at positions. -/
def ofTokensAt (ts : List Token) : Option (ImportTable × Nat) :=
  (importLoop ts).stop? ts (0, 0, []) 0

/-- **The loop of a file follows the collector of imports,** and takes every token. -/
theorem follows_importLoop (ts : List Token) :
    (importLoop ts).Follows ts fun s rest => (collect s.1 s.2.1 s.2.2 rest, []) := by
  rintro ⟨depth, top, imports⟩ i
  refine .lookAt (fun h => .leave_here h (by rw [collect])) fun t rest h => ?_
  have hstep : Lands ts i rest (i + 1) := .succ h
  have hlt := length_lt_of_cons h
  have hread := collect.eq_def depth top imports (t :: rest)
  dsimp only at hread ⊢
  split
  · next ho =>
    rw [if_pos ho] at hread
    exact .pass h (by rw [hread])
  next ho =>
  rw [if_neg ho] at hread
  split
  · next hc =>
    rw [if_pos hc] at hread
    exact .pass h (by rw [hread])
  next hc =>
  rw [if_neg hc] at hread
  split
  · next hn =>
    rw [if_pos hn] at hread
    refine .bind (NamespaceHead.finds_readAt hstep.drop) fun j hj => ?_
    have hpos := hj.le
    obtain ⟨last, hlast, hopens⟩ :=
      NamespaceHead.getElem?_opensBlock h (Bool.eq_false_iff.mpr ho) hj
    have hshort := (NamespaceHead.read_suffix rest).length_le.trans_lt hlt
    dsimp only
    rw [if_pos (by omega), hlast]
    refine .again (hstep.trans hj) hshort ?_
    rw [h, hread, hopens]
    split <;> rfl
  next hn =>
  rw [if_neg hn] at hread
  split
  · next hu =>
    rw [if_pos hu] at hread
    refine .bind (finds_readUseAt hstep.drop imports).eta fun j hj => ?_
    have hshort := (readUse_suffix rest imports).length_le.trans_lt hlt
    exact .again (hstep.trans hj) hshort (by rw [h, hread])
  · next hu =>
    rw [if_neg hu] at hread
    exact .pass h (by rw [hread])

/-- **The loop gives the imports of the file.** -/
theorem finds_ofTokensAt (ts : List Token) : Finds ts 0 (ofTokensAt ts) (ofTokens ts, []) :=
  (follows_importLoop ts).finds rfl (0, 0, [])

end ImportTable
end ClassLineage
