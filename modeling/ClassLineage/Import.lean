import ClassLineage.Name.Resolve
import ClassLineage.Namespace

/-!
# Imports

A file imports names by `use` statements, each of which may list several names,
give aliases, and factor out a common base in a group.  Only statements at the top
of the file, or directly inside the block of a namespace, are imports: elsewhere
the word belongs to a closure or to the traits of a class.  Imports of functions
and constants do not name classes and are passed over.

## Main definitions

* `Import.readAlias` — an alias.
* `Import.readGroup` — the members of a group.
* `Import.readClauses` — the names of a statement.
* `Import.readUse` — a statement.
* `ImportTable.ofTokens` — the imports of a file, a later one replacing an earlier
  one of the same alias.
-/

namespace ClassLineage

open Token

namespace Import

/-- The token marks an import that names no class. -/
def isOtherImport (t : Token) : Bool := t.isKeyword .functionWord || t.isKeyword .constWord

/-- The table with the name `full` imported, under the alias given to it or else under its
last segment.  Nothing is imported where nothing is named. -/
def add (given : Option String) (written full : String) (imports : ImportTable) : ImportTable :=
  if written = "" then imports
  else match given with
    | none | some "" => imports.put (Name.basename written) full
    | some a => imports.put a full

/-- The alias at the start of the tokens, after trivia, and what follows.  An alias is a
single segment after `as`; the word is dropped also where none follows it. -/
def readAlias (ts : List Token) : Option String × List Token :=
  match skipTrivia ts with
  | [] => (none, [])
  | t :: rest =>
    if t.isKeyword .asWord then
      match skipTrivia rest with
      | [] => (none, [])
      | n :: more => if n.kind == .name then (some n.text, more) else (none, n :: more)
    else (none, t :: rest)

/-- The tokens from the end of a group's member on: a comma, a brace that closes, or a
semicolon. -/
def skipMember (ts : List Token) : List Token :=
  ts.dropWhile fun t => !(t.isComma || t.closesBlock || t.isSemicolon)

theorem readAlias_suffix (ts : List Token) : (readAlias ts).2 <:+ ts := by
  unfold readAlias
  cases h : skipTrivia ts with
  | nil => exact List.nil_suffix
  | cons t rest =>
    have hs : t :: rest <:+ ts := h ▸ skipTrivia_suffix ts
    dsimp only
    split
    · cases h' : skipTrivia rest with
      | nil => exact List.nil_suffix
      | cons n more =>
        have hs' : n :: more <:+ rest := h' ▸ skipTrivia_suffix rest
        have hr : rest <:+ ts := (List.suffix_cons _ _).trans hs
        dsimp only
        split
        · exact ((List.suffix_cons _ _).trans hs').trans hr
        · exact hs'.trans hr
    · exact hs

/-- A name with its alias takes at least one token. -/
theorem length_readAlias_lt {ts after : List Token} {name : String}
    (h : collectName ts = (some name, after)) : (readAlias after).2.length < ts.length :=
  Nat.lt_of_le_of_lt (readAlias_suffix after).length_le (length_lt_of_collectName h)

theorem skipMember_suffix (ts : List Token) : skipMember ts <:+ ts := List.dropWhile_suffix _

/-- The imports of a group's members, below the common base, and what follows the
group's closing brace.  What is not a member is passed over, and a semicolon ends
the group before its brace. -/
def readGroup (base : String) (ts : List Token) (imports : ImportTable) :
    ImportTable × List Token :=
  match h : skipTrivia ts with
  | [] => (imports, [])
  | t :: rest =>
    have hlt := length_lt_of_skipTrivia h
    if t.closesBlock then (imports, rest)
    else if t.isComma then readGroup base rest imports
    else if isOtherImport t then
      have := (skipMember_suffix rest).length_le
      readGroup base (skipMember rest) imports
    else
      match hc : collectName (t :: rest) with
      | (none, _) => if t.isSemicolon then (imports, t :: rest) else readGroup base rest imports
      | (some name, after) =>
        have := Nat.lt_of_lt_of_le (length_readAlias_lt hc) hlt
        let member := Name.trimSeparators name
        let full := if base = "" then member else base ++ Name.separator ++ member
        readGroup base (readAlias after).2 (add (readAlias after).1 member full imports)
termination_by ts.length

/-- The imports of the names of a statement, from a name on, and what follows the
statement. -/
def readClauses (ts : List Token) (imports : ImportTable) : ImportTable × List Token :=
  match hc : collectName ts with
  | (none, rest) => (imports, skipStatement rest)
  | (some name, after) =>
    let base := Name.trimSeparators name
    if after.head?.any Token.opensBlock then
      let group := readGroup base after.tail imports
      (group.1, skipStatement group.2)
    else
      let imports := add (readAlias after).1 base base imports
      match hr : skipTrivia (readAlias after).2 with
      | [] => (imports, [])
      | t :: rest =>
        have := Nat.lt_trans (length_lt_of_skipTrivia hr) (length_readAlias_lt hc)
        if t.isComma then readClauses rest imports else (imports, skipStatement (t :: rest))
termination_by ts.length

/-- The imports of a `use` statement, after its keyword, and what follows it. -/
def readUse (ts : List Token) (imports : ImportTable) : ImportTable × List Token :=
  match skipTrivia ts with
  | [] => (imports, [])
  | t :: rest =>
    if isOtherImport t then (imports, skipStatement (t :: rest))
    else readClauses (t :: rest) imports

/-! ### The readers, by what they meet -/

section Equations

variable {t : Token} {ts rest : List Token}

theorem readGroup_of_nil (base : String) (imports : ImportTable) (h : skipTrivia ts = []) :
    readGroup base ts imports = (imports, []) := by
  rw [readGroup]
  split
  · rfl
  · next h' => simp [h] at h'

theorem readGroup_of_cons (base : String) (imports : ImportTable) (h : skipTrivia ts = t :: rest) :
    readGroup base ts imports =
      if t.closesBlock then (imports, rest)
      else if t.isComma then readGroup base rest imports
      else if isOtherImport t then readGroup base (skipMember rest) imports
      else match collectName (t :: rest) with
        | (none, _) => if t.isSemicolon then (imports, t :: rest) else readGroup base rest imports
        | (some name, after) =>
          let member := Name.trimSeparators name
          let full := if base = "" then member else base ++ Name.separator ++ member
          readGroup base (readAlias after).2 (add (readAlias after).1 member full imports) := by
  rw [readGroup]
  split
  · next h' => simp [h] at h'
  · next u us h' =>
    obtain ⟨rfl, rfl⟩ := List.cons.inj (h.symm.trans h')
    refine ite_congr rfl (fun _ => rfl) fun _ => ite_congr rfl (fun _ => rfl) fun _ =>
      ite_congr rfl (fun _ => rfl) fun _ => ?_
    split
    · next hc => simp only [hc]
    · next hc => simp only [hc]

theorem readClauses_eq (ts : List Token) (imports : ImportTable) :
    readClauses ts imports =
      match collectName ts with
      | (none, rest) => (imports, skipStatement rest)
      | (some name, after) =>
        let base := Name.trimSeparators name
        if after.head?.any Token.opensBlock then
          let group := readGroup base after.tail imports
          (group.1, skipStatement group.2)
        else
          let imports := add (readAlias after).1 base base imports
          match skipTrivia (readAlias after).2 with
          | [] => (imports, [])
          | t :: rest =>
            if t.isComma then readClauses rest imports else (imports, skipStatement (t :: rest)) := by
  rw [readClauses]
  split
  · next hc => simp only [hc]
  · next name after hc =>
    simp only [hc]
    refine ite_congr rfl (fun _ => rfl) fun _ => ?_
    split
    · next h => simp only [h]
    · next h => simp only [h]

end Equations

theorem readGroup_suffix (base : String) (ts : List Token) (imports : ImportTable) :
    (readGroup base ts imports).2 <:+ ts := by
  fun_induction readGroup base ts imports with
  | case1 => exact List.nil_suffix
  | case2 ts _ t rest h _ _ => exact (List.suffix_cons t rest).trans (h ▸ skipTrivia_suffix ts)
  | case3 ts _ t rest h _ _ _ ih =>
    exact ih.trans ((List.suffix_cons t rest).trans (h ▸ skipTrivia_suffix ts))
  | case4 ts _ t rest h _ _ _ _ _ ih =>
    exact (ih.trans (skipMember_suffix rest)).trans
      ((List.suffix_cons t rest).trans (h ▸ skipTrivia_suffix ts))
  | case5 ts _ t rest h => exact h ▸ skipTrivia_suffix ts
  | case6 ts _ t rest h _ _ _ _ _ _ _ ih =>
    exact ih.trans ((List.suffix_cons t rest).trans (h ▸ skipTrivia_suffix ts))
  | case7 ts _ t rest h _ _ _ _ name after hc _ _ _ ih =>
    have hs : after <:+ t :: rest := by
      have := collectName_suffix (t :: rest)
      rwa [hc] at this
    exact ((ih.trans (readAlias_suffix after)).trans hs).trans (h ▸ skipTrivia_suffix ts)

theorem readClauses_suffix (ts : List Token) (imports : ImportTable) :
    (readClauses ts imports).2 <:+ ts := by
  have hc : ∀ {ts : List Token} {n : Option String} {rest : List Token},
      collectName ts = (n, rest) → rest <:+ ts := by
    intro ts n rest h
    have := collectName_suffix ts
    rwa [h] at this
  fun_induction readClauses ts imports with
  | case1 ts _ rest h => exact (skipStatement_suffix rest).trans (hc h)
  | case2 ts imports name after h base _ group =>
    exact ((skipStatement_suffix _).trans (readGroup_suffix base after.tail imports)).trans
      ((List.tail_suffix after).trans (hc h))
  | case3 => exact List.nil_suffix
  | case4 ts _ name after h _ _ _ t rest hr _ _ ih =>
    exact ih.trans ((List.suffix_cons t rest).trans
      ((hr ▸ skipTrivia_suffix _).trans ((readAlias_suffix after).trans (hc h))))
  | case5 ts _ name after h _ _ _ t rest hr _ _ =>
    exact (skipStatement_suffix _).trans
      ((hr ▸ skipTrivia_suffix _).trans ((readAlias_suffix after).trans (hc h)))

theorem readUse_suffix (ts : List Token) (imports : ImportTable) :
    (readUse ts imports).2 <:+ ts := by
  unfold readUse
  cases h : skipTrivia ts with
  | nil => exact List.nil_suffix
  | cons t rest =>
    have hs : t :: rest <:+ ts := h ▸ skipTrivia_suffix ts
    dsimp only
    split
    · exact (skipStatement_suffix _).trans hs
    · exact (readClauses_suffix _ _).trans hs

end Import

open Import

/-- The imports of the rest of a file, added to those before it.  `depth` blocks are
open, and statements count as imports where `top` blocks are. -/
def ImportTable.collect (depth top : Nat) (imports : ImportTable) (ts : List Token) :
    ImportTable :=
  match ts with
  | [] => imports
  | t :: ts =>
    if t.opensBlock then collect (depth + 1) top imports ts
    else if t.closesBlock then collect (depth - 1) (min top (depth - 1)) imports ts
    else if depth = 0 ∧ t.isKeyword .namespaceWord then
      have := (NamespaceHead.read_suffix ts).length_le
      -- inside the block of a namespace, one block is open where imports may stand
      if (NamespaceHead.read ts).opensBlock ts then collect 1 1 imports (NamespaceHead.read ts).rest
      else collect depth top imports (NamespaceHead.read ts).rest
    else if depth = top ∧ t.isKeyword .useWord then
      have := (readUse_suffix ts imports).length_le
      collect depth top (readUse ts imports).1 (readUse ts imports).2
    else collect depth top imports ts
termination_by ts.length

/-- The imports of a file: the full name that each alias stands for. -/
def ImportTable.ofTokens (ts : List Token) : ImportTable := .collect 0 0 [] ts

end ClassLineage
