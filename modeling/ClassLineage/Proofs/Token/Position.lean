import ClassLineage.Proofs.Token.Grammar

/-!
# Moving through positions

The movers as loops over positions in a list of tokens, which they read by number.  A loop is run
round by round; a round goes on at a position or leaves the loop, and a token that is not there
cannot be read, so that a loop which reads one gives nothing.  A loop follows a reader of lists
when each of its rounds reads what is there only and goes on further, at tokens of which the
reader gives the same, or leaves where the reader does.  Then it ends after no more rounds than
there are tokens from its start on, and one, with what the reader gives and at the tokens that
the reader leaves.

## Main definitions

* `Round`, `Loop` — what a round does, and the loops.
* `Loop.run`, `Loop.stop?` — rounds one after the other.
* `Lands` — a position at which tokens are left.
* `Loop.Follows` — a loop does at positions what a reader does on tokens.
* `Token.skipTriviaAt`, `Token.collectNameAt`, `Token.skipBalancedAt`, `Token.skipStatementAt`,
  `NamespaceHead.readAt` — the movers at positions.

## Main results

* `Loop.Follows.finds` — **a loop that follows a reader ends where the reader does.**
* `Lands.eq_position` — that is the position of the mover.
* `Token.finds_collectNameAt`, `NamespaceHead.finds_readAt` — names and heads of namespaces.
-/

namespace ClassLineage

open Token

/-! ### Rounds and loops -/

/-- What a round of a loop does. -/
inductive Round (σ ρ : Type)
  /-- It goes on in a state, at a position. -/
  | again (state : σ) (next : Nat)
  /-- It leaves the loop with a result, at a position. -/
  | leave (result : ρ) (next : Nat)

/-- The position after the round. -/
def Round.next {σ ρ : Type} : Round σ ρ → Nat
  | again _ next => next
  | leave _ next => next

/-- A loop over positions, by its rounds; a round that reads a token which is not there gives
nothing. -/
structure Loop (σ ρ : Type) where
  /-- The round in a state, at a position. -/
  round : σ → Nat → Option (Round σ ρ)

namespace Loop

variable {σ ρ : Type}

/-- At most `fuel` rounds, one after the other, until the loop is left. -/
def run (loop : Loop σ ρ) : Nat → σ → Nat → Option (ρ × Nat)
  | 0, _, _ => none
  | fuel + 1, s, i =>
    match loop.round s i with
    | none => none
    | some (.leave result stop) => some (result, stop)
    | some (.again s' j) => loop.run fuel s' j

/-- The result of the loop and the position at which it is left, after no more rounds than there
are tokens from its start on, and one. -/
def stop? (loop : Loop σ ρ) (ts : List Token) (s : σ) (start : Nat) : Option (ρ × Nat) :=
  loop.run (ts.length - start + 1) s start

end Loop

/-- The token at a position is looked at, if the position is not past the end. -/
def lookAt {α : Type} (ts : List Token) (i : Nat) (past : α) (look : Token → Option α) :
    Option α :=
  if i < ts.length then ts[i]?.bind look else some past

/-- The token at a position is there, and it is as asked. -/
def testAt (p : Token → Bool) (ts : List Token) (i : Nat) : Option Bool :=
  lookAt ts i false fun t => some (p t)

/-! ### Where tokens are left -/

/-- The tokens `rest` are those from `stop` on, a position from `start` on that is not past the
end if `start` is not. -/
structure Lands (ts : List Token) (start : Nat) (rest : List Token) (stop : Nat) : Prop where
  /-- It is not before the start. -/
  le : start ≤ stop
  /-- It is not past the end, unless the start is. -/
  le_max : stop ≤ max start ts.length
  /-- The tokens from there on are `rest`. -/
  drop : ts.drop stop = rest

/-- What is found at positions is what is read from tokens, at the tokens that are left. -/
def Finds {α : Type} (ts : List Token) (start : Nat) (found : Option (α × Nat))
    (read : α × List Token) : Prop :=
  ∃ stop, found = some (read.1, stop) ∧ Lands ts start read.2 stop

section Positions

variable {ts rest more : List Token} {t : Token} {i j k : Nat}

theorem lookAt_of_nil {α : Type} {past : α} {look : Token → Option α} (h : ts.drop i = []) :
    lookAt ts i past look = some past := by
  rw [List.drop_eq_nil_iff] at h
  exact if_neg (by omega)

theorem lookAt_of_cons {α : Type} {past : α} {look : Token → Option α}
    (h : ts.drop i = t :: rest) : lookAt ts i past look = look t := by
  have hlen := congrArg List.length h
  rw [List.length_drop, List.length_cons] at hlen
  have hget : ts[i]? = some t := by
    rw [← List.head?_drop, h, List.head?_cons]
  rw [lookAt, if_pos (by omega), hget, Option.bind_some]

theorem testAt_bind {α : Type} (h : ts.drop i = rest) (p : Token → Bool)
    (next : Bool → Option α) : (testAt p ts i >>= next) = next (rest.head?.any p) := by
  rw [testAt]
  cases rest with
  | nil => rw [lookAt_of_nil h]; rfl
  | cons t rest => rw [lookAt_of_cons h]; rfl

theorem drop_succ_of_cons (h : ts.drop i = t :: rest) : ts.drop (i + 1) = rest := by
  rw [← List.tail_drop, h, List.tail_cons]

theorem length_lt_of_cons (h : ts.drop i = t :: rest) : rest.length < (ts.drop i).length := by
  rw [h]
  exact Nat.lt_succ_self _

theorem lt_length_of_cons (h : ts.drop i = t :: rest) : i < ts.length := by
  have hlen := congrArg List.length h
  rw [List.length_drop, List.length_cons] at hlen
  omega

namespace Lands

/-- Nothing is moved. -/
theorem refl (ts : List Token) (i : Nat) : Lands ts i (ts.drop i) i :=
  ⟨le_rfl, le_max_left _ _, rfl⟩

/-- A token is dropped. -/
theorem succ (h : ts.drop i = t :: rest) : Lands ts i rest (i + 1) :=
  ⟨i.le_succ, Nat.le_trans (lt_length_of_cons h) (le_max_right _ _), drop_succ_of_cons h⟩

theorem trans (h : Lands ts i rest j) (h' : Lands ts j more k) : Lands ts i more k := by
  have hle := h.le
  have hmax := h.le_max
  have hle' := h'.le
  have hmax' := h'.le_max
  exact ⟨by omega, by omega, h'.drop⟩

/-- A position with fewer tokens from there on is further. -/
theorem lt (h : Lands ts i rest j) (hlt : rest.length < (ts.drop i).length) : i < j := by
  rw [← h.drop, List.length_drop, List.length_drop] at hlt
  omega

theorem le_length (h : Lands ts i rest j) (hi : i ≤ ts.length) : j ≤ ts.length := by
  have hmax := h.le_max
  omega

/-- **The position at which tokens are left is that of the mover which leaves them.** -/
theorem eq_position {mover : List Token → List Token} (h : Lands ts i (mover (ts.drop i)) j) :
    j = position mover ts i := by
  have hle := h.le
  have hmax := h.le_max
  have hlen := congrArg List.length h.drop
  rw [List.length_drop] at hlen
  rw [position]
  split <;> omega

end Lands

/-! ### Finding -/

namespace Finds

variable {α β : Type} {found : Option (α × Nat)} {read : α × List Token}

theorem eta (h : Finds ts i found read) : Finds ts i found (read.1, read.2) := h

/-- Nothing more is read. -/
theorem here {us : List Token} (h : ts.drop i = us) (a : α) : Finds ts i (some (a, i)) (a, us) :=
  ⟨i, rfl, h ▸ Lands.refl ts i⟩

/-- A token is read, and nothing more. -/
theorem after (h : ts.drop i = t :: rest) (a : α) : Finds ts i (some (a, i + 1)) (a, rest) :=
  ⟨i + 1, rfl, .succ h⟩

/-- What is found from where tokens are left is found from the start. -/
theorem of_trans (h : Lands ts i rest j) (h' : Finds ts j found read) : Finds ts i found read := by
  obtain ⟨k, hk, hlands⟩ := h'
  exact ⟨k, hk, h.trans hlands⟩

/-- The token at a position decides what is found, or its being past the end. -/
theorem lookAt {past : α × Nat} {look : Token → Option (α × Nat)}
    (hnil : ts.drop i = [] → Finds ts k (some past) read)
    (hcons : ∀ t rest, ts.drop i = t :: rest → Finds ts k (look t) read) :
    Finds ts k (lookAt ts i past look) read := by
  cases h : ts.drop i with
  | nil => rw [lookAt_of_nil h]; exact hnil h
  | cons t rest => rw [lookAt_of_cons h]; exact hcons t rest h

/-- What is found first may decide what is looked for next. -/
theorem bind {a : α} {next : α × Nat → Option (β × Nat)} {out : β × List Token}
    (h : Finds ts i found (a, rest))
    (hnext : ∀ j, Lands ts i rest j → Finds ts j (next (a, j)) out) :
    Finds ts i (found.bind next) out := by
  obtain ⟨j, hj, hlands⟩ := h
  rw [hj, Option.bind_some]
  exact of_trans hlands (hnext j hlands)

end Finds

end Positions

/-! ### Loops that follow a reader -/

section Follows

variable {σ ρ : Type} {ts : List Token} {read : σ → List Token → ρ × List Token}

/-- In a state at a position, the round goes on further, at tokens of which `read` gives the same,
or it leaves with what `read` gives, where it leaves off. -/
def Round.Tracks (ts : List Token) (read : σ → List Token → ρ × List Token) (s : σ) (i : Nat) :
    Round σ ρ → Prop
  | again s' j => i < j ∧ j ≤ ts.length ∧ read s' (ts.drop j) = read s (ts.drop i)
  | leave result j => result = (read s (ts.drop i)).1 ∧ Lands ts i (read s (ts.drop i)).2 j

/-- There is a round, and it tracks `read`. -/
def Tracked (ts : List Token) (read : σ → List Token → ρ × List Token) (s : σ) (i : Nat)
    (round? : Option (Round σ ρ)) : Prop :=
  ∃ round, round? = some round ∧ round.Tracks ts read s i

/-- The loop does at positions what `read` does on the tokens from there on. -/
def Loop.Follows (loop : Loop σ ρ) (ts : List Token) (read : σ → List Token → ρ × List Token) :
    Prop :=
  ∀ s i, Tracked ts read s i (loop.round s i)

namespace Tracked

variable {rest : List Token} {t : Token} {s s' : σ} {result : ρ} {i j : Nat}

/-- The token at a position decides the round, or its being past the end. -/
theorem lookAt {k : Nat} {past : Round σ ρ} {look : Token → Option (Round σ ρ)}
    (hnil : ts.drop k = [] → Tracked ts read s i (some past))
    (hcons : ∀ t rest, ts.drop k = t :: rest → Tracked ts read s i (look t)) :
    Tracked ts read s i (lookAt ts k past look) := by
  cases h : ts.drop k with
  | nil => rw [lookAt_of_nil h]; exact hnil h
  | cons t rest => rw [lookAt_of_cons h]; exact hcons t rest h

/-- To go on where fewer tokens are left, of which `read` gives the same. -/
theorem again (h : Lands ts i rest j) (hlt : rest.length < (ts.drop i).length)
    (hread : read s' rest = read s (ts.drop i)) : Tracked ts read s i (some (.again s' j)) := by
  have hi : i ≤ ts.length := by
    rw [List.length_drop] at hlt
    omega
  exact ⟨_, rfl, h.lt hlt, h.le_length hi, by rw [h.drop, hread]⟩

/-- To leave with what `read` gives, where it leaves off. -/
theorem leave (h : Lands ts i rest j) (hread : read s (ts.drop i) = (result, rest)) :
    Tracked ts read s i (some (.leave result j)) :=
  ⟨_, rfl, by rw [hread], by rw [hread]; exact h⟩

/-- To go on after a token. -/
theorem pass (h : ts.drop i = t :: rest) (hread : read s' rest = read s (t :: rest)) :
    Tracked ts read s i (some (.again s' (i + 1))) :=
  again (.succ h) (length_lt_of_cons h) (by rw [h, hread])

/-- To leave after a token. -/
theorem leave_after (h : ts.drop i = t :: rest) (hread : read s (t :: rest) = (result, rest)) :
    Tracked ts read s i (some (.leave result (i + 1))) := leave (.succ h) (by rw [h, hread])

/-- To leave without a move. -/
theorem leave_here {us : List Token} (h : ts.drop i = us) (hread : read s us = (result, us)) :
    Tracked ts read s i (some (.leave result i)) :=
  leave (Lands.refl ts i) (by rw [h, hread])

/-- What is found first may decide the round. -/
theorem bind {α : Type} {a : α} {k : Nat} {found : Option (α × Nat)}
    {next : α × Nat → Option (Round σ ρ)} (h : Finds ts k found (a, rest))
    (hnext : ∀ j, Lands ts k rest j → Tracked ts read s i (next (a, j))) :
    Tracked ts read s i (found.bind next) := by
  obtain ⟨j, hj, hlands⟩ := h
  rw [hj, Option.bind_some]
  exact hnext j hlands

end Tracked

/-- **A loop that follows a reader ends where the reader does,** with what it gives: the rounds
that there may be suffice, as each goes on further. -/
theorem Loop.Follows.finds {loop : Loop σ ρ} (h : loop.Follows ts read) {i : Nat}
    {us : List Token} (hdrop : ts.drop i = us) (s : σ) :
    Finds ts i (loop.stop? ts s i) (read s us) := by
  have hrun : ∀ (fuel : Nat) (s : σ) (i : Nat), ts.length - i < fuel →
      Finds ts i (loop.run fuel s i) (read s (ts.drop i)) := by
    intro fuel
    induction fuel with
    | zero => exact fun s i hfuel => absurd hfuel (Nat.not_lt_zero _)
    | succ fuel ih =>
      intro s i hfuel
      obtain ⟨round, hround, htracks⟩ := h s i
      rw [Loop.run, hround]
      cases round with
      | leave result j =>
        obtain ⟨rfl, hlands⟩ := htracks
        exact ⟨j, rfl, hlands⟩
      | again s' j =>
        obtain ⟨hlt, hle, hread⟩ := htracks
        have hstep : Lands ts i (ts.drop j) j := ⟨hlt.le, hle.trans (le_max_right _ _), rfl⟩
        rw [← hread]
        exact (ih s' j (by omega)).of_trans hstep
  rw [← hdrop]
  exact hrun _ s i (Nat.lt_succ_self _)

/-- **A loop takes every token if what it follows leaves fewer than it is given.** -/
theorem Loop.Follows.takes {loop : Loop σ ρ} (h : loop.Follows ts read)
    (hread : ∀ s t rest, (read s (t :: rest)).2.length ≤ rest.length) (s : σ) {i : Nat}
    (hi : i < ts.length) : ∃ round, loop.round s i = some round ∧ i < round.next := by
  obtain ⟨round, hround, htracks⟩ := h s i
  refine ⟨round, hround, ?_⟩
  cases round with
  | again s' j => exact htracks.1
  | leave result j =>
    obtain ⟨-, hlands⟩ := htracks
    refine hlands.lt ?_
    rw [List.drop_eq_getElem_cons hi]
    exact Nat.lt_succ_of_le (hread s _ _)

end Follows

namespace Token

variable {ts us : List Token} {i : Nat}

/-! ### Movers -/

/-- Passes over blanks and comments. -/
def triviaLoop (ts : List Token) : Loop Unit Unit where
  round _ i := lookAt ts i (.leave () i) fun t =>
    some (if t.isTrivia then .again () (i + 1) else .leave () i)

/-- `skipTrivia` at a position. -/
def skipTriviaAt (ts : List Token) (i : Nat) : Option (Unit × Nat) := (triviaLoop ts).stop? ts () i

/-- Collects the parts of a name. -/
def nameLoop (ts : List Token) : Loop (List String) (List String) where
  round parts i := lookAt ts i (.leave parts i) fun t =>
    some (if t.isNamePart then .again (parts ++ [t.text]) (i + 1)
      else if t.isTrivia then .again parts (i + 1)
      else .leave parts i)

/-- `collectName` at a position: after trivia, the parts of a name. -/
def collectNameAt (ts : List Token) (i : Nat) : Option (Option String × Nat) := do
  let start ← skipTriviaAt ts i
  let parts ← (nameLoop ts).stop? ts [] start.2
  return (if parts.1 = [] then none else some (String.join parts.1), parts.2)

/-- Passes over a block, some blocks being open. -/
def blockLoop (ts : List Token) : Loop Nat Unit where
  round depth i := lookAt ts i (.leave () i) fun t =>
    some (if t.opensBlock then .again (depth + 1) (i + 1)
      else if t.closesBlock then
        if depth ≤ 1 then .leave () (i + 1) else .again (depth - 1) (i + 1)
      else .again depth (i + 1))

/-- `skipBalanced` at a position. -/
def skipBalancedAt (ts : List Token) (i : Nat) : Option (Unit × Nat) := (blockLoop ts).stop? ts 0 i

/-- Passes over what is left of a statement. -/
def statementLoop (ts : List Token) : Loop Unit Unit where
  round _ i := lookAt ts i (.leave () i) fun t =>
    some (if t.isSemicolon then .leave () (i + 1)
      else if t.opensBlock || t.closesBlock then .leave () i
      else .again () (i + 1))

/-- `skipStatement` at a position. -/
def skipStatementAt (ts : List Token) (i : Nat) : Option (Unit × Nat) :=
  (statementLoop ts).stop? ts () i

theorem follows_triviaLoop (ts : List Token) :
    (triviaLoop ts).Follows ts fun _ rest => ((), skipTrivia rest) := by
  refine fun _ i => .lookAt (fun h => .leave_here h rfl) fun t rest h => ?_
  split
  · next ht => exact .pass h (by rw [skipTrivia, skipTrivia, List.dropWhile_cons_of_pos ht])
  · next ht => exact .leave_here h (by rw [skipTrivia_cons (Bool.eq_false_iff.mpr ht)])

/-- What is collected of a name after some parts of it. -/
def collectParts (parts : List String) (ts : List Token) : List String × List Token :=
  (parts ++ ((ts.takeWhile isInName).filter isNamePart).map (·.text), ts.dropWhile isInName)

theorem follows_nameLoop (ts : List Token) : (nameLoop ts).Follows ts collectParts := by
  refine fun parts i => .lookAt (fun h => .leave_here h ?_) fun t rest h => ?_
  · simp [collectParts]
  · split
    · next hn =>
      refine .pass h ?_
      simp [collectParts, isInName, hn]
    · next hn =>
      split
      · next ht =>
        refine .pass h ?_
        simp [collectParts, isInName, hn, ht]
      · next ht =>
        refine .leave_here h ?_
        simp [collectParts, isInName, hn, ht]

theorem follows_blockLoop (ts : List Token) :
    (blockLoop ts).Follows ts fun depth rest => ((), skipBalanced depth rest) := by
  refine fun depth i => .lookAt (fun h => .leave_here h rfl) fun t rest h => ?_
  split
  · next ho => exact .pass h (by rw [skipBalanced, if_pos ho])
  · next ho =>
    split
    · next hc =>
      split
      · next hd => exact .leave_after h (by rw [skipBalanced, if_neg ho, if_pos hc, if_pos hd])
      · next hd => exact .pass h (by rw [skipBalanced, if_neg ho, if_pos hc, if_neg hd])
    · next hc => exact .pass h (by rw [skipBalanced, if_neg ho, if_neg hc])

theorem follows_statementLoop (ts : List Token) :
    (statementLoop ts).Follows ts fun _ rest => ((), skipStatement rest) := by
  refine fun _ i => .lookAt (fun h => .leave_here h rfl) fun t rest h => ?_
  split
  · next hs => exact .leave_after h (by rw [skipStatement, if_pos hs])
  · next hs =>
    split
    · next hb => exact .leave_here h (by rw [skipStatement, if_neg hs, if_pos hb])
    · next hb => exact .pass h (by rw [skipStatement, if_neg hs, if_neg hb])

theorem finds_skipTriviaAt (h : ts.drop i = us) :
    Finds ts i (skipTriviaAt ts i) ((), skipTrivia us) := (follows_triviaLoop ts).finds h ()

theorem finds_skipBalancedAt (h : ts.drop i = us) :
    Finds ts i (skipBalancedAt ts i) ((), skipBalanced 0 us) := (follows_blockLoop ts).finds h 0

theorem finds_skipStatementAt (h : ts.drop i = us) :
    Finds ts i (skipStatementAt ts i) ((), skipStatement us) :=
  (follows_statementLoop ts).finds h ()

/-- What is collected of a name is what its parts write. -/
theorem collectName_eq_collectParts (ts : List Token) :
    collectName ts = (if (collectParts [] ts).1 = [] then none
      else some (String.join (collectParts [] ts).1), (collectParts [] ts).2) := by
  rw [collectName, nameText, collectParts, List.nil_append]
  cases (ts.takeWhile isInName).filter isNamePart with
  | nil => rfl
  | cons t parts => rfl

/-- Trivia before a name belongs to what is collected. -/
theorem collectName_skipTrivia (ts : List Token) :
    collectName (skipTrivia ts) = collectName ts := by
  induction ts with
  | nil => rfl
  | cons t ts ih =>
    by_cases ht : t.isTrivia = true
    · have hpart : t.isNamePart = false := by
        rw [← Bool.not_eq_true]
        intro hpart
        rw [isTrivia_of_isNamePart hpart] at ht
        exact Bool.false_ne_true ht
      have hin := isInName_of_isTrivia ht
      rw [skipTrivia, List.dropWhile_cons_of_pos ht, ← skipTrivia, ih, collectName, collectName,
        List.takeWhile_cons_of_pos hin, List.dropWhile_cons_of_pos hin, nameText, nameText,
        List.filter_cons_of_neg (by simp [hpart])]
    · rw [skipTrivia_cons (Bool.eq_false_iff.mpr ht)]

theorem finds_collectNameAt (h : ts.drop i = us) :
    Finds ts i (collectNameAt ts i) (collectName us) := by
  refine (finds_skipTriviaAt h).bind fun j hj => ?_
  rw [← collectName_skipTrivia, collectName_eq_collectParts]
  exact ((follows_nameLoop ts).finds hj.drop []).bind fun k hk => .here hk.drop _

end Token

/-! ### Heads of namespaces -/

namespace NamespaceHead

variable {ts us : List Token} {i : Nat}

/-- `NamespaceHead.read` at a position: the name of the namespace, if the keyword before the
position declares one. -/
def readAt (ts : List Token) (i : Nat) : Option (Option String × Nat) := do
  let start ← skipTriviaAt ts i
  if ← testAt (·.kind == .separator) ts start.2 then
    return (none, start.2)
  let name ← collectNameAt ts start.2
  let space := Name.trimSeparators (name.1.getD "")
  if ← testAt (fun t => t.isSemicolon || t.opensBlock) ts name.2 then
    return (some space, name.2 + 1)
  return (some space, name.2)

theorem finds_readAt (h : ts.drop i = us) :
    Finds ts i (readAt ts i) ((read us).declared, (read us).rest) := by
  refine (finds_skipTriviaAt h).bind fun j hj => ?_
  dsimp only
  rw [testAt_bind hj.drop, ← isRelative, read]
  by_cases hrel : isRelative us = true
  · rw [if_pos hrel, if_pos hrel]
    exact .here hj.drop none
  rw [if_neg hrel, if_neg hrel]
  have hname := finds_collectNameAt hj.drop
  rw [collectName_skipTrivia] at hname
  generalize collectName us = out at hname ⊢
  obtain ⟨name, left⟩ := out
  refine hname.bind fun k hk => ?_
  dsimp only
  rw [testAt_bind hk.drop]
  cases left with
  | nil => exact .here hk.drop _
  | cons t rest =>
    rw [dropEnd, List.head?_cons, Option.any_some]
    split
    · exact .after hk.drop _
    · exact .here hk.drop _

/-- **The token before the position at which a head ends opens a block if the head does,** where
the keyword before the head opens none. -/
theorem getElem?_opensBlock {word : Token} {tail : List Token} {j : Nat}
    (h : ts.drop i = word :: tail) (hword : word.opensBlock = false)
    (hj : Lands ts (i + 1) (read tail).rest j) :
    ∃ last, ts[j - 1]? = some last ∧ last.opensBlock = (read tail).opensBlock tail := by
  obtain ⟨taken, htail, -⟩ := read_taken tail
  have hlen := congrArg List.length hj.drop
  have hlt := lt_length_of_cons h
  have hle := hj.le_length hlt
  have hdrop := congrArg List.length h
  have hsplit := congrArg List.length htail
  simp only [List.length_drop, List.length_cons, List.length_append] at hlen hdrop hsplit
  have hget : ts[j - 1]? = (word :: taken)[taken.length]? := by
    have hsum : j - 1 = i + taken.length := by omega
    rw [hsum, ← List.getElem?_drop, h, htail, ← List.cons_append,
      List.getElem?_append_left (Nat.lt_succ_self _)]
  rw [hget, opensBlock_of_eq htail]
  rcases List.eq_nil_or_concat taken with rfl | ⟨init, last, rfl⟩
  · exact ⟨word, rfl, hword⟩
  · refine ⟨last, ?_, ?_⟩
    · simp
    · simp

end NamespaceHead
end ClassLineage
