import ClassLineage.Namespace

/-!
# Outlines of declarations

The shape of the classes and interfaces that a file declares: names as they are
written, before any is resolved.  A declaration is read in phases: its keyword and
short name, the rest of its header up to a semicolon or an opening brace, and for a
class the body, of which only the statements that use traits matter.

Nothing is refused.  A header that runs into the end of the file, or into another
header, gives what has been read of it; a keyword that no name follows, as of an
anonymous class or of a class constant, gives nothing.

## Main definitions

* `Outline` — the shape of a declaration.
* `Outline.readShortName`, `Outline.readHeader`, `Outline.readBody` — the phases.
* `Outline.readAll` — the outlines of a file in order.
-/

namespace ClassLineage

open Token

/-- What a file declares. -/
inductive DeclarationKind
  /-- A class. -/
  | classKind
  /-- An interface. -/
  | interfaceKind
deriving Repr, DecidableEq

namespace DeclarationKind

/-- The word for a kind of declaration. -/
def word : DeclarationKind → String
  | classKind => "class"
  | interfaceKind => "interface"

/-- The kind that a token declares, if it is a keyword that declares one. -/
def ofToken? (t : Token) : Option DeclarationKind :=
  if t.isKeyword .classWord then some classKind
  else if t.isKeyword .interfaceWord then some interfaceKind
  else none

end DeclarationKind

/-- What a header says after the short name, and how it ends. -/
structure Header where
  /-- The parent as written. -/
  parent : Option String
  /-- The interfaces as written. -/
  interfaces : List String
  /-- A brace ends the header, so that a body follows. -/
  hasBody : Bool
  /-- The tokens after the header. -/
  rest : List Token
deriving Repr, DecidableEq

/-- The shape of a declaration, its names as written. -/
structure Outline where
  /-- What is declared. -/
  kind : DeclarationKind
  /-- The name that it is declared by. -/
  shortName : String
  /-- The namespace that it belongs to. -/
  space : String
  /-- The parent, the first where several are given. -/
  parent : Option String
  /-- The interfaces in order. -/
  interfaces : List String
  /-- The traits in order. -/
  traits : List String
deriving Repr, DecidableEq

namespace Outline

/-- The token may stand between the keyword and the short name. -/
def isModifier (t : Token) : Bool :=
  t.isTrivia || t.isKeyword .finalWord || t.isKeyword .abstractWord

/-- The token names a declaration: it is a name of one segment. -/
def isShortName (t : Token) : Bool := t.kind == .name && !t.text.toList.any Name.isSeparator

/-- The short name after the keyword of a declaration, if there is one, and what
follows. -/
def readShortName (ts : List Token) : Option String × List Token :=
  match ts.dropWhile isModifier with
  | [] => (none, [])
  | t :: rest => if isShortName t then (some t.text, rest) else (none, t :: rest)

theorem readShortName_suffix (ts : List Token) : (readShortName ts).2 <:+ ts := by
  unfold readShortName
  cases h : ts.dropWhile isModifier with
  | nil => exact List.nil_suffix
  | cons t rest =>
    have hs : t :: rest <:+ ts := h ▸ List.dropWhile_suffix _
    dsimp only
    split
    · exact (List.suffix_cons _ _).trans hs
    · exact hs

/-- A name as a reference: one that holds nothing but separators refers to nothing. -/
def reference? (name : Option String) : Option String := name.filter Name.hasSubstance

/-- The names of a list, up to a token at which the list ends or which is no name, and
the tokens from there on.  Commas and trivia stand between the names. -/
def readNames (ends : Token → Bool) (ts : List Token) : List String × List Token :=
  match ts with
  | [] => ([], [])
  | t :: rest =>
    if ends t then ([], t :: rest)
    else if t.isComma || t.isTrivia then readNames ends rest
    else
      match hc : collectName (t :: rest) with
      | (none, after) => ([], after)
      | (some name, after) =>
        have : after.length < rest.length + 1 := length_lt_of_collectName hc
        let more := readNames ends after
        ((reference? (some name)).toList ++ more.1, more.2)
termination_by ts.length

theorem readNames_suffix (ends : Token → Bool) (ts : List Token) :
    (readNames ends ts).2 <:+ ts := by
  have hc : ∀ {ts : List Token} {n : Option String} {rest : List Token},
      collectName ts = (n, rest) → rest <:+ ts := by
    intro ts n rest h
    have := collectName_suffix ts
    rwa [h] at this
  fun_induction readNames ends ts with
  | case1 => exact List.suffix_rfl
  | case2 => exact List.suffix_rfl
  | case3 t rest _ _ ih => exact ih.trans (List.suffix_cons _ _)
  | case4 t rest _ _ after h => exact hc h
  | case5 t rest _ _ name after h _ _ ih => exact ih.trans (hc h)

/-! ### A list of names, by its first token -/

section Names

variable {ends : Token → Bool} {t : Token} {ts after : List Token}

@[simp] theorem readNames_nil (ends : Token → Bool) : readNames ends [] = ([], []) := by
  rw [readNames]

theorem readNames_of_ends (h : ends t = true) : readNames ends (t :: ts) = ([], t :: ts) := by
  rw [readNames, if_pos h]

theorem readNames_of_between (h : ends t = false) (hb : (t.isComma || t.isTrivia) = true) :
    readNames ends (t :: ts) = readNames ends ts := by
  rw [readNames, if_neg (by simp [h]), if_pos hb]

theorem readNames_of_none (h : ends t = false) (hb : (t.isComma || t.isTrivia) = false)
    (hc : collectName (t :: ts) = (none, after)) : readNames ends (t :: ts) = ([], after) := by
  rw [readNames, if_neg (by simp [h]), if_neg (by simp [hb])]
  split
  · next hc' => rw [hc, Prod.mk.injEq] at hc'; rw [hc'.2]
  · next hc' => simp [hc] at hc'

theorem readNames_of_some {name : String} (h : ends t = false)
    (hb : (t.isComma || t.isTrivia) = false) (hc : collectName (t :: ts) = (some name, after)) :
    readNames ends (t :: ts)
      = ((reference? (some name)).toList ++ (readNames ends after).1, (readNames ends after).2) := by
  rw [readNames, if_neg (by simp [h]), if_neg (by simp [hb])]
  split
  · next hc' => simp [hc] at hc'
  · next hc' =>
    simp only [hc, Prod.mk.injEq, Option.some.injEq] at hc'
    rw [hc'.1, hc'.2]

end Names

/-- The token ends a list of interfaces. -/
def endsInterfaces (t : Token) : Bool := t.opensBlock || t.isSemicolon

/-- The token ends a list of traits; trivia never does. -/
def endsTraits (t : Token) : Bool := !t.isTrivia && (t.opensBlock || t.isSemicolon)

/-- The header after the short name, `parent` and `interfaces` having been read. -/
def readHeader (parent : Option String) (interfaces : List String) (ts : List Token) : Header :=
  match ts with
  | [] => ⟨parent, interfaces, false, []⟩
  | t :: ts =>
    if t.opensBlock then ⟨parent, interfaces, true, ts⟩
    else if t.isSemicolon then ⟨parent, interfaces, false, ts⟩
    else if t.isKeyword .extendsWord then
      have := (collectName_suffix ts).length_le
      readHeader (parent.or (reference? (collectName ts).1)) interfaces (collectName ts).2
    else if t.isKeyword .implementsWord then
      have := (readNames_suffix endsInterfaces ts).length_le
      let list := readNames endsInterfaces ts
      readHeader parent (interfaces ++ list.1) list.2
    else readHeader parent interfaces ts
termination_by ts.length

theorem readHeader_suffix (parent : Option String) (interfaces : List String)
    (ts : List Token) : (readHeader parent interfaces ts).rest <:+ ts := by
  fun_induction readHeader parent interfaces ts with
  | case1 => exact List.suffix_rfl
  | case2 => exact List.suffix_cons _ _
  | case3 => exact List.suffix_cons _ _
  | case4 p is t ts _ _ _ _ ih =>
    exact ih.trans ((collectName_suffix ts).trans (List.suffix_cons _ _))
  | case5 p is t ts _ _ _ _ _ list ih =>
    exact ih.trans ((readNames_suffix endsInterfaces ts).trans (List.suffix_cons _ _))
  | case6 p is t ts _ _ _ _ ih => exact ih.trans (List.suffix_cons _ _)

/-- The traits of a statement, after its keyword, and what follows it.  A semicolon
ends the statement, and so does the block that adapts the traits; a token that is no
name ends it too, and is left. -/
def readTraitUse (ts : List Token) : List String × List Token :=
  let list := readNames endsTraits ts
  match list.2 with
  | [] => (list.1, [])
  | t :: rest =>
    if t.isSemicolon then (list.1, rest)
    else if t.opensBlock then (list.1, skipBalanced 0 (t :: rest))
    else (list.1, t :: rest)

theorem readTraitUse_suffix (ts : List Token) : (readTraitUse ts).2 <:+ ts := by
  unfold readTraitUse
  cases h : (readNames endsTraits ts).2 with
  | nil => simpa only [h] using List.nil_suffix
  | cons t rest =>
    have hs : t :: rest <:+ ts := h ▸ readNames_suffix endsTraits ts
    simp only [h]
    split
    · exact (List.suffix_cons _ _).trans hs
    · split
      · exact (skipBalanced_suffix 0 _).trans hs
      · exact hs

/-- The traits that the rest of a body uses, and what follows the body, `depth` blocks
being open. -/
def readBody (depth : Nat) (ts : List Token) : List String × List Token :=
  match ts with
  | [] => ([], [])
  | t :: ts =>
    if t.opensBlock then readBody (depth + 1) ts
    else if t.closesBlock then if depth ≤ 1 then ([], ts) else readBody (depth - 1) ts
    else if depth = 1 ∧ t.isKeyword .useWord then
      have := (readTraitUse_suffix ts).length_le
      let used := readTraitUse ts
      let more := readBody depth used.2
      (used.1 ++ more.1, more.2)
    else readBody depth ts
termination_by ts.length

theorem readBody_suffix (depth : Nat) (ts : List Token) : (readBody depth ts).2 <:+ ts := by
  fun_induction readBody depth ts with
  | case1 => exact List.suffix_rfl
  | case2 d t ts _ ih => exact ih.trans (List.suffix_cons _ _)
  | case3 d t ts => exact List.suffix_cons _ _
  | case4 d t ts _ _ _ ih => exact ih.trans (List.suffix_cons _ _)
  | case5 d t ts _ _ _ _ _ _ ih =>
    exact ih.trans ((readTraitUse_suffix ts).trans (List.suffix_cons _ _))
  | case6 d t ts _ _ _ ih => exact ih.trans (List.suffix_cons _ _)

/-- The traits of a declaration and what follows it, given what its header says: only
a class with a body has any. -/
def readTraits (kind : DeclarationKind) (header : Header) : List String × List Token :=
  if kind = .classKind ∧ header.hasBody then readBody 1 header.rest else ([], header.rest)

theorem readTraits_suffix (kind : DeclarationKind) (header : Header) :
    (readTraits kind header).2 <:+ header.rest := by
  unfold readTraits
  split
  · exact readBody_suffix 1 header.rest
  · exact List.suffix_rfl

/-- The outline of a declaration, after its short name, and what follows it. -/
def readOutline (kind : DeclarationKind) (space shortName : String) (ts : List Token) :
    Outline × List Token :=
  let header := readHeader none [] ts
  let traits := readTraits kind header
  (⟨kind, shortName, space, header.parent, header.interfaces, traits.1⟩, traits.2)

theorem readOutline_suffix (kind : DeclarationKind) (space shortName : String)
    (ts : List Token) : (readOutline kind space shortName ts).2 <:+ ts :=
  (readTraits_suffix kind _).trans (readHeader_suffix none [] ts)

/-- The outlines of the rest of a file, whose current namespace is `space`. -/
def readFrom (space : String) (ts : List Token) : List Outline :=
  match ts with
  | [] => []
  | t :: ts =>
    if t.isKeyword .namespaceWord then
      have := (NamespaceHead.read_suffix ts).length_le
      readFrom ((NamespaceHead.read ts).declared.getD space) (NamespaceHead.read ts).rest
    else
      match DeclarationKind.ofToken? t with
      | none => readFrom space ts
      | some kind =>
        have := (readShortName_suffix ts).length_le
        match (readShortName ts).1 with
        | none => readFrom space (readShortName ts).2
        | some shortName =>
          have := (readOutline_suffix kind space shortName (readShortName ts).2).length_le
          (readOutline kind space shortName (readShortName ts).2).1
            :: readFrom space (readOutline kind space shortName (readShortName ts).2).2
termination_by ts.length

/-- The outlines of the declarations of a file, in order. -/
def readAll (ts : List Token) : List Outline := readFrom "" ts

end Outline
end ClassLineage
