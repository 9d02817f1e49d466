import ClassLineage.Declaration.Outline
import ClassLineage.Proofs.Import.Position

/-!
# Declarations through positions

The reader of outlines as loops over positions.  The header meets words that it does not know, a
list of interfaces or of traits meets tokens that are no names, and a body may end before it is
closed.  A list is left at such a token, which the header or the body around it takes, and a
declaration without a name is left at the token after its keyword, which the loop of the file
takes.

## Main definitions

* `Outline.readShortNameAt`, `Outline.readHeaderAt`, `Outline.readTraitUseAt`,
  `Outline.readBodyAt` — the readers at positions.
* `Outline.readAllAt` — the outlines of a file, read at positions.

## Main results

* `Outline.follows_headerLoop`, `Outline.follows_traitLoop`, `Outline.follows_bodyLoop` — headers
  and bodies.
* `Outline.follows_outlineLoop` — **the loop of the file.**
* `Outline.finds_readAllAt` — it gives the outlines of the file.
-/

namespace ClassLineage

open Token

/-- What a header says, without the tokens after it. -/
def Header.said (h : Header) : Option String × List String × Bool :=
  (h.parent, h.interfaces, h.hasBody)

namespace Outline

variable {ts us : List Token} {i : Nat}

/-! ### Short names -/

/-- Passes over what may stand between a keyword and a short name. -/
def modifierLoop (ts : List Token) : Loop Unit Unit where
  round _ i := lookAt ts i (.leave () i) fun t =>
    some (if isModifier t then .again () (i + 1) else .leave () i)

/-- `readShortName` at a position. -/
def readShortNameAt (ts : List Token) (i : Nat) : Option (Option String × Nat) := do
  let start ← (modifierLoop ts).stop? ts () i
  lookAt ts start.2 (none, start.2) fun t =>
    some (if isShortName t then (some t.text, start.2 + 1) else (none, start.2))

theorem follows_modifierLoop (ts : List Token) :
    (modifierLoop ts).Follows ts fun _ rest => ((), rest.dropWhile isModifier) := by
  refine fun _ i => .lookAt (fun h => .leave_here h rfl) fun t rest h => ?_
  split
  · next ht => exact .pass h (by rw [List.dropWhile_cons_of_pos ht])
  · next ht => exact .leave_here h (by rw [List.dropWhile_cons_of_neg ht])

theorem finds_readShortNameAt (h : ts.drop i = us) :
    Finds ts i (readShortNameAt ts i) (readShortName us) := by
  refine ((follows_modifierLoop ts).finds h ()).bind fun j hj =>
    .lookAt (fun h => ?_) fun t rest h => ?_
  · rw [readShortName, hj.drop.symm.trans h]
    exact .here h none
  · rw [readShortName, hj.drop.symm.trans h]
    dsimp only
    split
    · exact .after h _
    · exact .here h none

/-! ### Headers -/

/-- Reads the interfaces of a header. -/
def interfaceLoop (ts : List Token) : Loop (List String) (List String) where
  round names i := lookAt ts i (.leave names i) fun t =>
    if t.opensBlock || t.isSemicolon then some (.leave names i)
    else if t.isComma || t.isTrivia then some (.again names (i + 1))
    else do
      let name ← collectNameAt ts i
      match name.1 with
      | none => return .leave names name.2
      | some text => return .again (names ++ (reference? (some text)).toList) name.2

/-- Reads a header, in a state that tells the parent and the interfaces that have been read, and
gives them and whether a body follows. -/
def headerLoop (ts : List Token) :
    Loop (Option String × List String) (Option String × List String × Bool) where
  round s i := lookAt ts i (.leave (s.1, s.2, false) i) fun t =>
    if t.opensBlock then some (.leave (s.1, s.2, true) (i + 1))
    else if t.isSemicolon then some (.leave (s.1, s.2, false) (i + 1))
    else if t.isKeyword .extendsWord then do
      let name ← collectNameAt ts (i + 1)
      return .again (s.1.or (reference? name.1), s.2) name.2
    else if t.isKeyword .implementsWord then do
      let names ← (interfaceLoop ts).stop? ts s.2 (i + 1)
      return .again (s.1, names.1) names.2
    else some (.again s (i + 1))

/-- `readHeader` at a position. -/
def readHeaderAt (ts : List Token) (i : Nat) :
    Option ((Option String × List String × Bool) × Nat) := (headerLoop ts).stop? ts (none, []) i

theorem follows_interfaceLoop (ts : List Token) :
    (interfaceLoop ts).Follows ts fun names rest =>
      (names ++ (readNames endsInterfaces rest).1, (readNames endsInterfaces rest).2) := by
  refine fun names i => .lookAt (fun h => .leave_here h ?_) fun t rest h => ?_
  · rw [readNames_nil, List.append_nil]
  split
  · next he => exact .leave_here h (by rw [readNames_of_ends he, List.append_nil])
  next he =>
  have hends : endsInterfaces t = false := Bool.eq_false_iff.mpr he
  split
  · next hb => exact .pass h (by rw [readNames_of_between hends hb])
  next hb =>
  have hbetween := Bool.eq_false_iff.mpr hb
  refine .bind (finds_collectNameAt h).eta fun j hj => ?_
  generalize hcollect : collectName (t :: rest) = out at hj
  obtain ⟨name, after⟩ := out
  cases name with
  | none =>
    exact .leave hj (by rw [h, readNames_of_none hends hbetween hcollect, List.append_nil])
  | some text =>
    refine .again hj (by rw [h]; exact length_lt_of_collectName hcollect) ?_
    rw [h, readNames_of_some hends hbetween hcollect, List.append_assoc]

theorem follows_headerLoop (ts : List Token) :
    (headerLoop ts).Follows ts fun s rest =>
      ((readHeader s.1 s.2 rest).said, (readHeader s.1 s.2 rest).rest) := by
  rintro ⟨parent, interfaces⟩ i
  refine .lookAt (fun h => .leave_here h (by rw [readHeader]; rfl)) fun t rest h => ?_
  have hstep : Lands ts i rest (i + 1) := .succ h
  have hlt := length_lt_of_cons h
  have hread := readHeader.eq_def parent interfaces (t :: rest)
  dsimp only at hread ⊢
  split
  · next ho =>
    rw [if_pos ho] at hread
    exact .leave_after h (by rw [hread]; rfl)
  next ho =>
  rw [if_neg ho] at hread
  split
  · next hs =>
    rw [if_pos hs] at hread
    exact .leave_after h (by rw [hread]; rfl)
  next hs =>
  rw [if_neg hs] at hread
  split
  · next he =>
    rw [if_pos he] at hread
    refine .bind (finds_collectNameAt hstep.drop).eta fun j hj => ?_
    have hshort := (collectName_suffix rest).length_le.trans_lt hlt
    exact .again (hstep.trans hj) hshort (by rw [h, hread])
  next he =>
  rw [if_neg he] at hread
  split
  · next hi =>
    rw [if_pos hi] at hread
    refine .bind ((follows_interfaceLoop ts).finds hstep.drop interfaces) fun j hj => ?_
    have hshort := (readNames_suffix endsInterfaces rest).length_le.trans_lt hlt
    exact .again (hstep.trans hj) hshort (by rw [h, hread])
  · next hi =>
    rw [if_neg hi] at hread
    exact .pass h (by rw [hread])

theorem finds_readHeaderAt (h : ts.drop i = us) :
    Finds ts i (readHeaderAt ts i) ((readHeader none [] us).said, (readHeader none [] us).rest) :=
  (follows_headerLoop ts).finds h (none, [])

/-- A header takes a token if there is one. -/
theorem length_readHeader (parent : Option String) (interfaces : List String) (t : Token)
    (rest : List Token) : (readHeader parent interfaces (t :: rest)).rest.length ≤ rest.length := by
  rw [readHeader]
  split_ifs
  · exact le_rfl
  · exact le_rfl
  · exact ((readHeader_suffix _ _ _).trans (collectName_suffix rest)).length_le
  · exact ((readHeader_suffix _ _ _).trans (readNames_suffix _ rest)).length_le
  · exact (readHeader_suffix _ _ _).length_le

/-! ### Bodies -/

/-- Reads the traits of a statement, and leaves it at its end. -/
def traitLoop (ts : List Token) : Loop (List String) (List String) where
  round names i := lookAt ts i (.leave names i) fun t =>
    if t.isTrivia || t.isComma then some (.again names (i + 1))
    else if t.isSemicolon then some (.leave names (i + 1))
    else if t.opensBlock then do
      let stop ← skipBalancedAt ts i
      return .leave names stop.2
    else do
      let name ← collectNameAt ts i
      match name.1 with
      | none => return .leave names i
      | some text => return .again (names ++ (reference? (some text)).toList) name.2

/-- `readTraitUse` at a position. -/
def readTraitUseAt (ts : List Token) (i : Nat) : Option (List String × Nat) :=
  (traitLoop ts).stop? ts [] i

/-- Reads a body, in a state that tells how many blocks are open and the traits that have been
read. -/
def bodyLoop (ts : List Token) : Loop (Nat × List String) (List String) where
  round s i := lookAt ts i (.leave s.2 i) fun t =>
    if t.opensBlock then some (.again (s.1 + 1, s.2) (i + 1))
    else if t.closesBlock then
      some (if s.1 ≤ 1 then .leave s.2 (i + 1) else .again (s.1 - 1, s.2) (i + 1))
    else if s.1 = 1 ∧ t.isKeyword .useWord then do
      let used ← readTraitUseAt ts (i + 1)
      return .again (s.1, s.2 ++ used.1) used.2
    else some (.again s (i + 1))

/-- `readBody` at a position, one block being open. -/
def readBodyAt (ts : List Token) (i : Nat) : Option (List String × Nat) :=
  (bodyLoop ts).stop? ts (1, []) i

/-- Where no name is found at a token, it is no trivia that is passed over. -/
theorem eq_of_collectName_none {t : Token} {rest after : List Token} (ht : t.isTrivia = false)
    (h : collectName (t :: rest) = (none, after)) : after = t :: rest := by
  have hin : t.isInName = false := by
    rw [← Bool.not_eq_true]
    intro hin
    have hmem : t ∈ (t :: rest).takeWhile isInName := by
      rw [List.takeWhile_cons_of_pos hin]
      exact List.mem_cons_self
    have hpart := (nameText_eq_none_iff _).mp (congrArg Prod.fst h) t hmem
    rw [isInName, hpart, ht] at hin
    exact Bool.false_ne_true hin
  rw [collectName_of_not_isInName hin] at h
  exact (congrArg Prod.snd h).symm

/-- A statement that uses traits goes on where its list of names does. -/
theorem readTraitUse_of_readNames {names : List String} {ts us : List Token}
    (h : readNames endsTraits ts
      = (names ++ (readNames endsTraits us).1, (readNames endsTraits us).2)) :
    readTraitUse ts = (names ++ (readTraitUse us).1, (readTraitUse us).2) := by
  rw [readTraitUse, readTraitUse, h]
  dsimp only
  cases (readNames endsTraits us).2 with
  | nil => rfl
  | cons t rest =>
    dsimp only
    split_ifs <;> rfl

theorem follows_traitLoop (ts : List Token) :
    (traitLoop ts).Follows ts fun names rest =>
      (names ++ (readTraitUse rest).1, (readTraitUse rest).2) := by
  refine fun names i => .lookAt (fun h => .leave_here h ?_) fun t rest h => ?_
  · rw [readTraitUse, readNames_nil, List.append_nil]
  split
  · next hb =>
    have hends : endsTraits t = false := by
      rw [Bool.or_eq_true] at hb
      rcases hb with ht | hc
      · simp [endsTraits, ht]
      · simp [endsTraits, opensBlock_of_isComma hc, isSemicolon_of_isComma hc]
    have hnames : readNames endsTraits (t :: rest)
        = ([] ++ (readNames endsTraits rest).1, (readNames endsTraits rest).2) :=
      readNames_of_between hends (by rw [Bool.or_comm]; exact hb)
    exact .pass h (by rw [readTraitUse_of_readNames hnames, List.nil_append])
  next hb =>
  rw [Bool.not_eq_true, Bool.or_eq_false_iff] at hb
  obtain ⟨htrivia, hcomma⟩ := hb
  split
  · next hs =>
    have hends : endsTraits t = true := by simp [endsTraits, htrivia, hs]
    refine .leave_after h ?_
    rw [readTraitUse, readNames_of_ends hends]
    dsimp only
    rw [if_pos hs, List.append_nil]
  next hs =>
  split
  · next ho =>
    have hends : endsTraits t = true := by simp [endsTraits, htrivia, ho]
    refine .bind (finds_skipBalancedAt h) fun j hj => .leave hj ?_
    rw [h, readTraitUse, readNames_of_ends hends]
    dsimp only
    rw [if_neg hs, if_pos ho, List.append_nil]
  next ho =>
  rw [Bool.not_eq_true] at hs ho
  have hends : endsTraits t = false := by simp [endsTraits, hs, ho]
  have hbetween : (t.isComma || t.isTrivia) = false := by rw [htrivia, hcomma]; rfl
  refine .bind (finds_collectNameAt h).eta fun j hj => ?_
  generalize hcollect : collectName (t :: rest) = out at hj
  obtain ⟨name, after⟩ := out
  cases name with
  | none =>
    have hnames := readNames_of_none hends hbetween hcollect
    rw [eq_of_collectName_none htrivia hcollect] at hnames
    refine .leave_here h ?_
    rw [readTraitUse, hnames]
    dsimp only
    rw [hs, ho, if_neg Bool.false_ne_true, if_neg Bool.false_ne_true, List.append_nil]
  | some text =>
    refine .again hj (by rw [h]; exact length_lt_of_collectName hcollect) ?_
    rw [h, readTraitUse_of_readNames (readNames_of_some hends hbetween hcollect),
      List.append_assoc]

theorem finds_readTraitUseAt (h : ts.drop i = us) :
    Finds ts i (readTraitUseAt ts i) (readTraitUse us) := (follows_traitLoop ts).finds h []

theorem follows_bodyLoop (ts : List Token) :
    (bodyLoop ts).Follows ts fun s rest =>
      (s.2 ++ (readBody s.1 rest).1, (readBody s.1 rest).2) := by
  rintro ⟨depth, traits⟩ i
  refine .lookAt (fun h => .leave_here h (by rw [readBody, List.append_nil])) fun t rest h => ?_
  have hstep : Lands ts i rest (i + 1) := .succ h
  have hlt := length_lt_of_cons h
  have hread := readBody.eq_def depth (t :: rest)
  dsimp only at hread ⊢
  split
  · next ho =>
    rw [if_pos ho] at hread
    exact .pass h (by rw [hread])
  next ho =>
  rw [if_neg ho] at hread
  split
  · next hc =>
    rw [if_pos hc] at hread
    split
    · next hd =>
      rw [if_pos hd] at hread
      exact .leave_after h (by rw [hread, List.append_nil])
    · next hd =>
      rw [if_neg hd] at hread
      exact .pass h (by rw [hread])
  next hc =>
  rw [if_neg hc] at hread
  split
  · next hu =>
    rw [if_pos hu] at hread
    refine .bind (finds_readTraitUseAt hstep.drop).eta fun j hj => ?_
    have hshort := (readTraitUse_suffix rest).length_le.trans_lt hlt
    exact .again (hstep.trans hj) hshort (by rw [h, hread, List.append_assoc])
  · next hu =>
    rw [if_neg hu] at hread
    exact .pass h (by rw [hread])

theorem finds_readBodyAt (h : ts.drop i = us) :
    Finds ts i (readBodyAt ts i) (readBody 1 us) := (follows_bodyLoop ts).finds h (1, [])

/-- A body takes a token if there is one. -/
theorem length_readBody (depth : Nat) (t : Token) (rest : List Token) :
    (readBody depth (t :: rest)).2.length ≤ rest.length := by
  rw [readBody]
  split_ifs
  · exact (readBody_suffix _ _).length_le
  · exact le_rfl
  · exact (readBody_suffix _ _).length_le
  · exact ((readBody_suffix _ _).trans (readTraitUse_suffix rest)).length_le
  · exact (readBody_suffix _ _).length_le

/-! ### Files -/

/-- `readTraits` at a position. -/
def readTraitsAt (kind : DeclarationKind) (hasBody : Bool) (ts : List Token) (i : Nat) :
    Option (List String × Nat) :=
  if kind = .classKind ∧ hasBody then readBodyAt ts i else some ([], i)

/-- Reads the outlines of a file, in a state that tells the current namespace and the outlines that
have been read. -/
def outlineLoop (ts : List Token) : Loop (String × List Outline) (List Outline) where
  round s i := lookAt ts i (.leave s.2 i) fun t =>
    if t.isKeyword .namespaceWord then do
      let head ← NamespaceHead.readAt ts (i + 1)
      return .again (head.1.getD s.1, s.2) head.2
    else match DeclarationKind.ofToken? t with
      | none => some (.again s (i + 1))
      | some kind => do
        let name ← readShortNameAt ts (i + 1)
        match name.1 with
        | none => return .again s name.2
        | some shortName =>
          let header ← readHeaderAt ts name.2
          let traits ← readTraitsAt kind header.1.2.2 ts header.2
          return .again
            (s.1, s.2 ++ [⟨kind, shortName, s.1, header.1.1, header.1.2.1, traits.1⟩]) traits.2

/-- The outlines of a file, read at positions. -/
def readAllAt (ts : List Token) : Option (List Outline × Nat) :=
  (outlineLoop ts).stop? ts ("", []) 0

theorem finds_readTraitsAt {header : Header} (h : ts.drop i = header.rest)
    (kind : DeclarationKind) :
    Finds ts i (readTraitsAt kind header.hasBody ts i) (readTraits kind header) := by
  rw [readTraitsAt, readTraits]
  split
  · exact finds_readBodyAt h
  · exact .here h []

/-- **The loop of a file follows the reader of outlines,** and takes every token. -/
theorem follows_outlineLoop (ts : List Token) :
    (outlineLoop ts).Follows ts fun s rest => (s.2 ++ readFrom s.1 rest, []) := by
  rintro ⟨space, outlines⟩ i
  refine .lookAt (fun h => .leave_here h (by rw [readFrom, List.append_nil])) fun t rest h => ?_
  have hstep : Lands ts i rest (i + 1) := .succ h
  have hlt := length_lt_of_cons h
  have hread := readFrom.eq_def space (t :: rest)
  dsimp only at hread ⊢
  split
  · next hn =>
    rw [if_pos hn] at hread
    refine .bind (NamespaceHead.finds_readAt hstep.drop) fun j hj => ?_
    have hshort := (NamespaceHead.read_suffix rest).length_le.trans_lt hlt
    exact .again (hstep.trans hj) hshort (by rw [h, hread])
  next hn =>
  rw [if_neg hn] at hread
  cases hkind : DeclarationKind.ofToken? t with
  | none =>
    rw [hkind] at hread
    exact .pass h (by rw [hread])
  | some kind =>
    rw [hkind] at hread
    refine .bind (finds_readShortNameAt hstep.drop).eta fun j hj => ?_
    have hnamed := (readShortName_suffix rest).length_le.trans_lt hlt
    dsimp only at hread ⊢
    cases hshort : (readShortName rest).1 with
    | none =>
      rw [hshort] at hread
      exact .again (hstep.trans hj) hnamed (by rw [h, hread])
    | some shortName =>
      rw [hshort] at hread
      refine .bind (finds_readHeaderAt hj.drop) fun k hk => ?_
      have hlands := (hstep.trans hj).trans hk
      have hleft := (readHeader_suffix none [] (readShortName rest).2).length_le.trans_lt hnamed
      refine .bind (finds_readTraitsAt hlands.drop kind).eta fun l hl => ?_
      refine .again (hlands.trans hl) ((readTraits_suffix kind _).length_le.trans_lt hleft) ?_
      rw [h, hread, List.append_assoc]
      rfl

/-- **The loop gives the outlines of the file.** -/
theorem finds_readAllAt (ts : List Token) : Finds ts 0 (readAllAt ts) (readAll ts, []) :=
  (follows_outlineLoop ts).finds rfl ("", [])

end Outline
end ClassLineage
