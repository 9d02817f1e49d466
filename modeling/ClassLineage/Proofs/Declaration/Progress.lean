import ClassLineage.Proofs.Declaration.Position

/-!
# Every loop gets on

The scanners read tokens by number, in loops inside loops, and several readers may give back the
position that they were given.  Yet no token is read that is not there, every phase stops between
its start and the end, and every round of every loop goes on further or leaves its loop for good:
at a token, if there is one, that the loop around it takes in its next round.

## Main definitions

* `ScanPhase` — the phases, with what they do to tokens and where they stop.
* `ScanLoop` — the loops, with the loops around them.
* `ScanLoop.IsOrderly` — a round goes on further, or leaves at a token that is taken next.

## Main results

* `ScanPhase.exists_stopAt` — a phase stops where its mover does.
* `ScanLoop.exists_isOrderly` — every round of every loop is orderly.
* `scan_progresses` — **the scanners get on,** and give the imports and the outlines of a file.
-/

namespace ClassLineage

open Token

/-! ### Phases -/

/-- The phases of the scanners, each of which starts at a position and stops at one. -/
inductive ScanPhase
  /-- Blanks and comments. -/
  | trivia
  /-- A name. -/
  | name
  /-- A block with all blocks inside it. -/
  | block
  /-- What is left of a statement. -/
  | statement
  /-- The head of a namespace. -/
  | namespaceHead
  /-- The alias of an import. -/
  | importAlias
  /-- What is left of a member of a group. -/
  | member
  /-- The members of a group below a base. -/
  | group (base : String) (imports : ImportTable)
  /-- A statement that imports. -/
  | importUse (imports : ImportTable)
  /-- The short name of a declaration. -/
  | shortName
  /-- The header of a declaration. -/
  | header
  /-- A statement that uses traits. -/
  | traitUse
  /-- The body of a class. -/
  | body

namespace ScanPhase

/-- What the phase leaves of the tokens that it is given. -/
def mover : ScanPhase → List Token → List Token
  | trivia, ts => skipTrivia ts
  | name, ts => (collectName ts).2
  | block, ts => skipBalanced 0 ts
  | statement, ts => skipStatement ts
  | namespaceHead, ts => (NamespaceHead.read ts).rest
  | importAlias, ts => (Import.readAlias ts).2
  | member, ts => Import.skipMember ts
  | group base imports, ts => (Import.readGroup base ts imports).2
  | importUse imports, ts => (Import.readUse ts imports).2
  | shortName, ts => (Outline.readShortName ts).2
  | header, ts => (Outline.readHeader none [] ts).rest
  | traitUse, ts => (Outline.readTraitUse ts).2
  | body, ts => (Outline.readBody 1 ts).2

/-- The position at which the phase stops. -/
def stopAt (ts : List Token) (start : Nat) : ScanPhase → Option Nat
  | trivia => (skipTriviaAt ts start).map (·.2)
  | name => (collectNameAt ts start).map (·.2)
  | block => (skipBalancedAt ts start).map (·.2)
  | statement => (skipStatementAt ts start).map (·.2)
  | namespaceHead => (NamespaceHead.readAt ts start).map (·.2)
  | importAlias => (Import.readAliasAt ts start).map (·.2)
  | member => (Import.skipMemberAt ts start).map (·.2)
  | group base imports => (Import.readGroupAt base imports ts start).map (·.2)
  | importUse imports => (Import.readUseAt imports ts start).map (·.2)
  | shortName => (Outline.readShortNameAt ts start).map (·.2)
  | header => (Outline.readHeaderAt ts start).map (·.2)
  | traitUse => (Outline.readTraitUseAt ts start).map (·.2)
  | body => (Outline.readBodyAt ts start).map (·.2)

/-- **A phase reads no token that is not there, and stops where its mover does.** -/
theorem exists_stopAt (p : ScanPhase) (ts : List Token) (start : Nat) :
    ∃ stop, p.stopAt ts start = some stop ∧ Lands ts start (p.mover (ts.drop start)) stop := by
  have hstop : ∀ {α : Type} {found : Option (α × Nat)} {read : α × List Token},
      Finds ts start found read →
      ∃ stop, found.map (·.2) = some stop ∧ Lands ts start read.2 stop := by
    rintro α found read ⟨stop, rfl, hlands⟩
    exact ⟨stop, rfl, hlands⟩
  cases p with
  | trivia => exact hstop (finds_skipTriviaAt rfl)
  | name => exact hstop (finds_collectNameAt rfl)
  | block => exact hstop (finds_skipBalancedAt rfl)
  | statement => exact hstop (finds_skipStatementAt rfl)
  | namespaceHead => exact hstop (NamespaceHead.finds_readAt rfl)
  | importAlias => exact hstop (Import.finds_readAliasAt rfl)
  | member => exact hstop (Import.finds_skipMemberAt rfl)
  | group base imports => exact hstop (Import.finds_readGroupAt rfl base imports)
  | importUse imports => exact hstop (Import.finds_readUseAt rfl imports)
  | shortName => exact hstop (Outline.finds_readShortNameAt rfl)
  | header => exact hstop (Outline.finds_readHeaderAt rfl)
  | traitUse => exact hstop (Outline.finds_readTraitUseAt rfl)
  | body => exact hstop (Outline.finds_readBodyAt rfl)

end ScanPhase

/-! ### Loops -/

/-- The loops of the scanners. -/
inductive ScanLoop
  /-- Over trivia. -/
  | trivia
  /-- Over the parts of a name. -/
  | name
  /-- Over a block. -/
  | block
  /-- Over what is left of a statement. -/
  | statement
  /-- Over what is left of a member of a group. -/
  | member
  /-- Over the members of a group. -/
  | group (base : String)
  /-- Over the names of a statement that imports. -/
  | clauses
  /-- Over a file, for its imports. -/
  | imports
  /-- Over what may stand before a short name. -/
  | modifiers
  /-- Over the interfaces of a header. -/
  | interfaces
  /-- Over a header. -/
  | header
  /-- Over the names of a statement that uses traits. -/
  | traits
  /-- Over a body. -/
  | body
  /-- Over a file, for its outlines. -/
  | outlines

namespace ScanLoop

/-- What a round of the loop hands to the next one. -/
def State : ScanLoop → Type
  | trivia | statement | member | modifiers => Unit
  | name | interfaces | traits => List String
  | block => Nat
  | group _ | clauses => ImportTable
  | imports => Nat × Nat × ImportTable
  | header => Option String × List String
  | body => Nat × List String
  | outlines => String × List Outline

/-- What the loop gives when it is left. -/
def Result : ScanLoop → Type
  | trivia | block | statement | member | modifiers => Unit
  | name | interfaces | traits | body => List String
  | group _ | clauses | imports => ImportTable
  | header => Option String × List String × Bool
  | outlines => List Outline

/-- The rounds of the loop. -/
def rounds (ts : List Token) : (l : ScanLoop) → Loop l.State l.Result
  | trivia => triviaLoop ts
  | name => nameLoop ts
  | block => blockLoop ts
  | statement => statementLoop ts
  | member => Import.memberLoop ts
  | group base => Import.groupLoop base ts
  | clauses => Import.clausesLoop ts
  | imports => ImportTable.importLoop ts
  | modifiers => Outline.modifierLoop ts
  | interfaces => Outline.interfaceLoop ts
  | header => Outline.headerLoop ts
  | traits => Outline.traitLoop ts
  | body => Outline.bodyLoop ts
  | outlines => Outline.outlineLoop ts

/-- The loops around the loop that take the token at which it is left.  A loop in between, such as
that over a group when a member of it ends at a semicolon, may be left at the same token. -/
def around : ScanLoop → List ScanLoop
  | trivia | name => [imports, outlines, header, body]
  | block | traits => [body]
  | statement | member | group _ | clauses => [imports]
  | interfaces => [header]
  | modifiers | header | body => [outlines]
  | imports | outlines => []

/-- The loop takes the token at a position, in any state: its round there ends after it. -/
def Takes (ts : List Token) (l : ScanLoop) (i : Nat) : Prop :=
  ∀ s, ∃ round, (l.rounds ts).round s i = some round ∧ i < round.next

/-- The round goes on further, or it leaves the loop between its start and the end, at a token, if
there is one there, that the loops around take. -/
def IsOrderly (ts : List Token) (l : ScanLoop) (i : Nat) : Round l.State l.Result → Prop
  | .again _ j => i < j ∧ j ≤ ts.length
  | .leave _ j =>
    i ≤ j ∧ j ≤ max i ts.length ∧ (j < ts.length → ∀ outer ∈ l.around, outer.Takes ts j)

theorem takes_of_mem_around {l outer : ScanLoop} (h : outer ∈ l.around) {ts : List Token} {i : Nat}
    (hi : i < ts.length) : outer.Takes ts i := by
  have himports : imports.Takes ts i := fun s =>
    (ImportTable.follows_importLoop ts).takes (fun _ _ _ => Nat.zero_le _) s hi
  have houtlines : outlines.Takes ts i := fun s =>
    (Outline.follows_outlineLoop ts).takes (fun _ _ _ => Nat.zero_le _) s hi
  have hheader : header.Takes ts i := fun s =>
    (Outline.follows_headerLoop ts).takes (fun s => Outline.length_readHeader s.1 s.2) s hi
  have hbody : body.Takes ts i := fun s =>
    (Outline.follows_bodyLoop ts).takes (fun s => Outline.length_readBody s.1) s hi
  have hfour : ∀ l ∈ [imports, outlines, header, body], l.Takes ts i := by
    simp [himports, houtlines, hheader, hbody]
  refine hfour outer ?_
  cases l <;> simp [around] at h ⊢ <;> tauto

/-- What follows a reader is orderly. -/
theorem isOrderly_of_tracks {ts : List Token} {l : ScanLoop} {s : l.State} {i : Nat}
    {read : l.State → List Token → l.Result × List Token} {round : Round l.State l.Result}
    (h : round.Tracks ts read s i) : l.IsOrderly ts i round := by
  cases round with
  | again s' j => exact ⟨h.1, h.2.1⟩
  | leave result j =>
    exact ⟨h.2.le, h.2.le_max, fun hj outer houter => takes_of_mem_around houter hj⟩

/-- **Every round of every loop is orderly,** whatever its state and its position are. -/
theorem exists_isOrderly (l : ScanLoop) (ts : List Token) (s : l.State) (i : Nat) :
    ∃ round, (l.rounds ts).round s i = some round ∧ l.IsOrderly ts i round := by
  have hfollows : ∃ read, (l.rounds ts).Follows ts read := by
    cases l with
    | trivia => exact ⟨_, follows_triviaLoop ts⟩
    | name => exact ⟨_, follows_nameLoop ts⟩
    | block => exact ⟨_, follows_blockLoop ts⟩
    | statement => exact ⟨_, follows_statementLoop ts⟩
    | member => exact ⟨_, Import.follows_memberLoop ts⟩
    | group base => exact ⟨_, Import.follows_groupLoop base ts⟩
    | clauses => exact ⟨_, Import.follows_clausesLoop ts⟩
    | imports => exact ⟨_, ImportTable.follows_importLoop ts⟩
    | modifiers => exact ⟨_, Outline.follows_modifierLoop ts⟩
    | interfaces => exact ⟨_, Outline.follows_interfaceLoop ts⟩
    | header => exact ⟨_, Outline.follows_headerLoop ts⟩
    | traits => exact ⟨_, Outline.follows_traitLoop ts⟩
    | body => exact ⟨_, Outline.follows_bodyLoop ts⟩
    | outlines => exact ⟨_, Outline.follows_outlineLoop ts⟩
  obtain ⟨read, h⟩ := hfollows
  obtain ⟨round, hround, htracks⟩ := h s i
  exact ⟨round, hround, isOrderly_of_tracks htracks⟩

end ScanLoop

/-! ### Files -/

/-- Where no token is left of a file, its end is reached. -/
theorem eq_some_of_finds {α : Type} {ts : List Token} {found : Option (α × Nat)} {a : α}
    (h : Finds ts 0 found (a, [])) : found = some (a, ts.length) := by
  obtain ⟨stop, rfl, hlands⟩ := h
  have hle := hlands.le_max
  have hdrop := List.drop_eq_nil_iff.mp hlands.drop
  have hstop : stop = ts.length := by omega
  rw [hstop]

/-- **The scanners get on.**  Whatever the tokens are, each phase stops when it is started at any
position, at the position of its mover, which lies between the start and the end; each round of
each loop, in any state and at any position, reads only tokens that are there, and goes on further
or leaves the loop at a token that the loops around it take; and the loops over the file end at
its end, with its imports and its outlines. -/
theorem scan_progresses (ts : List Token) :
    (∀ (p : ScanPhase) (start : Nat), p.stopAt ts start = some (position p.mover ts start) ∧
        start ≤ position p.mover ts start ∧
        position p.mover ts start ≤ max start ts.length) ∧
      (∀ (l : ScanLoop) (s : l.State) (i : Nat),
        ∃ round, (l.rounds ts).round s i = some round ∧ l.IsOrderly ts i round) ∧
      ImportTable.ofTokensAt ts = some (ImportTable.ofTokens ts, ts.length) ∧
      Outline.readAllAt ts = some (Outline.readAll ts, ts.length) := by
  refine ⟨fun p start => ?_, fun l s i => l.exists_isOrderly ts s i,
    eq_some_of_finds (ImportTable.finds_ofTokensAt ts),
    eq_some_of_finds (Outline.finds_readAllAt ts)⟩
  obtain ⟨stop, hstop, hlands⟩ := p.exists_stopAt ts start
  rw [← hlands.eq_position]
  exact ⟨hstop, hlands.le, hlands.le_max⟩

end ClassLineage
