import ClassLineage.Php.SyntaxTree
import ClassLineage.Proofs.Declaration.Reduction
import ClassLineage.Proofs.Import.Grammar
import ClassLineage.Proofs.Text.Utf8

/-!
# Contents do not matter, but for one

A named leaf that is no name, no comment and no keyword covers content, as of a quoted
text or a number.  What a file imports and declares is the same whatever its contents
say, with one exception: a content that is written like the start of an interpolation is
taken for a brace that opens a block.

## Main definitions

* `Leaf.IsContent` — the leaf covers content.
* `Leaf.Rewrites allowed` — a leaf with its content rewritten as is allowed.
* `FindsSame` — two lists of tokens import and declare the same.
* `SyntaxTree.flat` — a tree with given leaves.

## Main results

* `SyntaxTree.leaves_flat` — any texts are the leaves of some source with a tree.
* `SyntaxTree.findsSame_iff` — **rewriting contents changes nothing exactly if it neither
  makes nor unmakes the start of an interpolation.**
-/

namespace ClassLineage

open Text Token

/-- The text of a token that opens a block whatever its kind. -/
def interpolationMark : String := "$\x7b"

namespace Leaf

/-- The leaf covers content: the grammar names it, and it is no name, no separator, no
comment, and labelled by no keyword in whatever case. -/
structure IsContent (leaf : Leaf) : Prop where
  /-- The grammar names the leaf. -/
  named : leaf.named = true
  /-- It is no segment of a name. -/
  label_ne_name : leaf.label ≠ "name"
  /-- It is no separator. -/
  label_ne_separator : leaf.label ≠ "\\"
  /-- It is no comment. -/
  label_ne_comment : leaf.label ≠ "comment"
  /-- It is no keyword. -/
  label_no_keyword : Keyword.ofText? (lower leaf.label) = none

/-- The leaf `other` is the leaf with its content rewritten as is allowed, if it is changed
at all; where it starts does not matter. -/
inductive Rewrites (allowed : String → String → Prop) (leaf other : Leaf) : Prop
  /-- Nothing is rewritten. -/
  | same (label : other.label = leaf.label) (named : other.named = leaf.named)
      (text : other.text = leaf.text)
  /-- Content that is not blank is rewritten to content that is not blank. -/
  | content (label : other.label = leaf.label) (named : other.named = leaf.named)
      (content : leaf.IsContent) (blank : isBlankText leaf.text = false)
      (blank' : isBlankText other.text = false) (text : allowed leaf.text other.text)

/-- Content that is not blank makes a token of no kind of its own. -/
theorem IsContent.kind_toToken {leaf : Leaf} (h : leaf.IsContent)
    (hblank : isBlankText leaf.text = false) : leaf.toToken.kind = .other := by
  show TokenKind.classify leaf.label leaf.text leaf.named = .other
  rw [TokenKind.classify, h.label_no_keyword]
  show TokenKind.classify.plain leaf.label leaf.text leaf.named = .other
  rw [TokenKind.classify.plain, if_neg h.label_ne_name, if_neg h.label_ne_separator,
    if_neg h.label_ne_comment, hblank, h.named]
  rfl

/-- A leaf whose content is rewritten keeps its role, if the mark of an interpolation is
neither made nor unmade. -/
theorem Rewrites.sameRole {allowed : String → String → Prop} {leaf other : Leaf}
    (h : leaf.Rewrites allowed other)
    (hmark : ∀ x y, isBlankText x = false → isBlankText y = false → allowed x y →
      (x = interpolationMark ↔ y = interpolationMark)) :
    SameRole leaf.toToken other.toToken := by
  cases h with
  | same label named text =>
    have hkind : other.toToken.kind = leaf.toToken.kind := by
      show TokenKind.classify other.label other.text other.named = _
      rw [label, named, text]
      rfl
    exact ⟨hkind, fun _ => text, fun _ => text, by rw [text_toToken, text_toToken, text]⟩
  | content label named content blank blank' text =>
    -- content stays content, and content is of no kind of its own before and after
    have hother : other.IsContent := by
      constructor
      · rw [named, content.named]
      all_goals rw [label]
      · exact content.label_ne_name
      · exact content.label_ne_separator
      · exact content.label_ne_comment
      · exact content.label_no_keyword
    have hk := content.kind_toToken blank
    have hk' := hother.kind_toToken blank'
    refine ⟨hk'.trans hk.symm, fun hn => ?_, fun hs => ?_, ?_⟩
    · simp [isNamePart, hk] at hn
    · rw [hk] at hs
      exact absurd hs (by decide)
    · have hiff := hmark _ _ blank blank' text
      rw [text_toToken, text_toToken, Bool.eq_iff_iff, beq_iff_eq, beq_iff_eq]
      exact hiff.symm

end Leaf

/-- The two lists of tokens import the same and declare the same. -/
structure FindsSame (ts us : List Token) : Prop where
  /-- The imports are the same. -/
  imports : ImportTable.ofTokens us = ImportTable.ofTokens ts
  /-- The declarations are the same. -/
  declarations : ∀ path, Declaration.scan path us = Declaration.scan path ts

/-- Tokens with the same roles import and declare the same. -/
theorem FindsSame.of_sameRole {ts us : List Token} (h : List.Forall₂ SameRole ts us) :
    FindsSame ts us where
  imports := ImportTable.ofTokens_congr h
  declarations := fun path => by
    rw [Declaration.scan, Declaration.scan, ImportTable.ofTokens_congr h, Declaration.scanWith,
      Declaration.scanWith, Outline.readAll_congr h]

namespace SyntaxTree

/-! ### A tree with given leaves -/

/-- The nodes that cover the texts of leaves one after the other, from a place on. -/
def placed (start : Nat) : List Leaf → List SyntaxNode
  | [] => []
  | leaf :: rest =>
    let stop := start + (Utf8.encode leaf.text).length
    ⟨leaf.label, leaf.named, false, start, stop, leaf.line - 1⟩ :: placed stop rest

/-- The source in which the texts of leaves stand one after the other. -/
def written (leaves : List Leaf) : List UInt8 := leaves.flatMap fun leaf => Utf8.encode leaf.text

/-- The tree of `written leaves` with these leaves below one node. -/
def flat (leaves : List Leaf) : SyntaxTree :=
  .node ⟨"program", true, true, 0, 0, 0⟩ ((placed 0 leaves).map fun n => .node n [])

theorem walk_of_ends (ns : List SyntaxNode) : walk (ns.map fun n => .node n []) = ns := by
  induction ns with
  | nil => rw [List.map_nil, walk]
  | cons n ns ih => rw [List.map_cons, walk, ih]

theorem length_encode_pos {s : String} (h : s ≠ "") : 0 < (Utf8.encode s).length := by
  rw [Utf8.length_encode, Nat.pos_iff_ne_zero]
  exact mt String.utf8ByteSize_eq_zero_iff.mp h

/-- Leaves that are written one after the other are found where they are placed. -/
theorem filterMap_leaf?_placed {leaves : List Leaf}
    (h : ∀ leaf ∈ leaves, leaf.text ≠ "" ∧ 1 ≤ leaf.line) (before : List UInt8) :
    (placed before.length leaves).filterMap (leaf? (before ++ written leaves)) = leaves := by
  induction leaves generalizing before with
  | nil => rfl
  | cons leaf rest ih =>
    obtain ⟨hne, hline⟩ := h leaf List.mem_cons_self
    have hpos := length_encode_pos hne
    have hsource : before ++ written (leaf :: rest)
        = (before ++ Utf8.encode leaf.text) ++ written rest := by
      rw [written, List.flatMap_cons, List.append_assoc]
      rfl
    have hstop : (before ++ Utf8.encode leaf.text).length
        = before.length + (Utf8.encode leaf.text).length := List.length_append
    -- what stands between the ends of the first leaf is its text, and no more
    have hslice : slice (before ++ written (leaf :: rest)) before.length
        (before.length + (Utf8.encode leaf.text).length) = Utf8.encode leaf.text := by
      rw [slice, hsource, ← hstop, List.take_left, List.drop_left]
    have hleaf : leaf? (before ++ written (leaf :: rest)) ⟨leaf.label, leaf.named, false,
        before.length, before.length + (Utf8.encode leaf.text).length, leaf.line - 1⟩
          = some leaf := by
      have hcovers : ¬(false || decide (before.length + (Utf8.encode leaf.text).length
          ≤ before.length)) = true := by
        rw [Bool.false_or, decide_eq_true_eq]
        omega
      rw [leaf?, hslice, Utf8.decode_encode, if_neg hcovers, Nat.sub_add_cancel hline]
    rw [placed, List.filterMap_cons_some hleaf, hsource, ← hstop,
      ih fun l hl => h l (List.mem_cons_of_mem _ hl)]

/-- **Any texts are the leaves of a source with its tree.** -/
theorem leaves_flat {ls : List Leaf} (h : ∀ leaf ∈ ls, leaf.text ≠ "" ∧ 1 ≤ leaf.line) :
    leaves (written ls) (flat ls) = ls := by
  have hplaced := filterMap_leaf?_placed h []
  rw [List.nil_append, List.length_nil] at hplaced
  rw [leaves, flat]
  cases hp : placed 0 ls with
  | nil =>
    rw [hp, List.filterMap_nil] at hplaced
    rw [List.map_nil, walk, walk, ← hplaced]
    rfl
  | cons n ns =>
    have hwalk := walk_of_ends (n :: ns)
    rw [List.map_cons] at hwalk
    rw [List.map_cons, walk, List.append_nil, hwalk, ← hp, hplaced]

/-! ### The mark of an interpolation -/

/-- A quoted content followed by an import. -/
def quotedThenImport (content : String) : List Leaf :=
  [⟨"string_content", true, content, 1⟩, ⟨"use", false, "use", 1⟩, ⟨"name", true, "A", 1⟩,
    ⟨";", false, ";", 1⟩]

theorem line_quotedThenImport {content : String} (h : content ≠ "") :
    ∀ leaf ∈ quotedThenImport content, leaf.text ≠ "" ∧ 1 ≤ leaf.line := by
  intro leaf hleaf
  simp only [quotedThenImport, List.mem_cons, List.not_mem_nil, or_false] at hleaf
  rcases hleaf with rfl | rfl | rfl | rfl
  · exact ⟨h, Nat.le_refl 1⟩
  all_goals exact ⟨by decide, Nat.le_refl 1⟩

theorem isContent_string (content : String) :
    (Leaf.mk "string_content" true content 1).IsContent where
  named := rfl
  label_ne_name := (by decide : "string_content" ≠ "name")
  label_ne_separator := (by decide : "string_content" ≠ "\\")
  label_ne_comment := (by decide : "string_content" ≠ "comment")
  label_no_keyword := (by decide : Keyword.ofText? (lower "string_content") = none)

theorem ne_empty_of_isBlankText {s : String} (h : isBlankText s = false) : s ≠ "" := by
  rintro rfl
  exact absurd h (by decide)

/-- The tokens of a quoted content followed by an import. -/
theorem tokens_quotedThenImport {content : String} (h : isBlankText content = false) :
    tokens (written (quotedThenImport content)) (flat (quotedThenImport content))
      = ⟨.other, content, 1⟩ :: [⟨.keyword .useWord, "use", 1⟩, ⟨.name, "A", 1⟩,
          ⟨.symbol, ";", 1⟩] := by
  have hcontent : (Leaf.mk "string_content" true content 1).toToken = ⟨.other, content, 1⟩ := by
    rw [Leaf.toToken, ← (isContent_string content).kind_toToken h]
    rfl
  have huse : (Leaf.mk "use" false "use" 1).toToken = ⟨.keyword .useWord, "use", 1⟩ := by decide
  have hname : (Leaf.mk "name" true "A" 1).toToken = ⟨.name, "A", 1⟩ := by decide
  have hstop : (Leaf.mk ";" false ";" 1).toToken = ⟨.symbol, ";", 1⟩ := by decide +kernel
  rw [tokens, leaves_flat (line_quotedThenImport (ne_empty_of_isBlankText h)), quotedThenImport,
    List.map_cons, hcontent, List.map_cons, huse, List.map_cons, hname, List.map_cons, hstop,
    List.map_nil]

/-- After any other content the import is read. -/
theorem ofTokens_of_ne_mark {content : String} (h : content ≠ interpolationMark) :
    ImportTable.ofTokens (⟨.other, content, 1⟩ :: [⟨.keyword .useWord, "use", 1⟩,
      ⟨.name, "A", 1⟩, ⟨.symbol, ";", 1⟩]) = [("A", "A")] := by
  have ho : opensBlock ⟨.other, content, 1⟩ = false := by
    rw [opensBlock, isSymbol, Bool.or_eq_false_iff]
    exact ⟨rfl, beq_eq_false_iff_ne.mpr h⟩
  have hname : Import.WritesImported "A" "A" [⟨.name, "A", 1⟩] := by
    refine .plain (.one (t := ⟨.name, "A", 1⟩) ⟨rfl, by decide, by decide⟩) ?_
    simp [Import.SpellsSeparators]
  have hitem : Import.WritesItem [("A", "A")] ([⟨.keyword .useWord, "use", 1⟩, ⟨.name, "A", 1⟩,
      ⟨.symbol, ";", 1⟩]) :=
    @Import.WritesItem.names _ _ ⟨.symbol, ";", 1⟩ _ rfl (.one hname .absent) rfl
  have hmarks : MarksInterpolate [⟨.keyword .useWord, "use", 1⟩, ⟨.name, "A", 1⟩,
      ⟨.symbol, ";", 1⟩] := by simp [MarksInterpolate]
  rw [ImportTable.ofTokens, Import.collect_other ho rfl (fun _ => rfl) (fun _ => rfl)]
  have hcollect := Import.collect_item hitem hmarks 0 [] []
  rw [List.append_nil] at hcollect
  rw [hcollect, ImportTable.collect]
  rfl

/-- After the mark of an interpolation a block is open, and the import is not read. -/
theorem ofTokens_mark :
    ImportTable.ofTokens (⟨.other, interpolationMark, 1⟩ :: [⟨.keyword .useWord, "use", 1⟩,
      ⟨.name, "A", 1⟩, ⟨.symbol, ";", 1⟩]) = [] := by
  rw [ImportTable.ofTokens, Import.collect_opensBlock rfl,
    Import.collect_other rfl rfl (fun h => absurd h (by decide)) (fun h => absurd h (by decide)),
    Import.collect_other rfl rfl (fun h => absurd h (by decide)) (fun h => absurd h (by decide)),
    Import.collect_other rfl rfl (fun h => absurd h (by decide)) (fun h => absurd h (by decide)),
    ImportTable.collect]

/-- A quoted content and its rewriting, as leaves. -/
theorem forall₂_quotedThenImport {allowed : String → String → Prop} {x y : String}
    (hx : isBlankText x = false) (hy : isBlankText y = false) (h : allowed x y) :
    List.Forall₂ (Leaf.Rewrites allowed)
      (leaves (written (quotedThenImport x)) (flat (quotedThenImport x)))
      (leaves (written (quotedThenImport y)) (flat (quotedThenImport y))) := by
  rw [leaves_flat (line_quotedThenImport (ne_empty_of_isBlankText hx)),
    leaves_flat (line_quotedThenImport (ne_empty_of_isBlankText hy))]
  have hcontent : (Leaf.mk "string_content" true x 1).Rewrites allowed
      ⟨"string_content", true, y, 1⟩ :=
    .content rfl rfl (isContent_string x) hx hy h
  exact .cons hcontent (.cons (.same rfl rfl rfl) (.cons (.same rfl rfl rfl)
    (.cons (.same rfl rfl rfl) .nil)))

/-- The imports tell the mark of an interpolation from any other content. -/
theorem eq_mark_of_findsSame {x y : String} (hx : isBlankText x = false)
    (hy : isBlankText y = false)
    (h : FindsSame (tokens (written (quotedThenImport x)) (flat (quotedThenImport x)))
      (tokens (written (quotedThenImport y)) (flat (quotedThenImport y)))) :
    x = interpolationMark ↔ y = interpolationMark := by
  have himports := h.imports
  rw [tokens_quotedThenImport hx, tokens_quotedThenImport hy] at himports
  constructor
  · rintro rfl
    by_contra hne
    rw [ofTokens_mark, ofTokens_of_ne_mark hne] at himports
    exact List.cons_ne_nil _ _ himports
  · rintro rfl
    by_contra hne
    rw [ofTokens_mark, ofTokens_of_ne_mark hne] at himports
    exact List.cons_ne_nil _ _ himports.symm

/-- **Contents are ignored, but for the mark of an interpolation.**  Let any contents that are
not blank be rewritten as is allowed.  Then every source finds the same as before, whatever
its tree, exactly if no rewriting makes or unmakes the mark. -/
theorem findsSame_iff (allowed : String → String → Prop) :
    (∀ (source other : List UInt8) (t u : SyntaxTree),
      List.Forall₂ (Leaf.Rewrites allowed) (leaves source t) (leaves other u) →
        FindsSame (tokens source t) (tokens other u)) ↔
      ∀ x y, isBlankText x = false → isBlankText y = false → allowed x y →
        (x = interpolationMark ↔ y = interpolationMark) := by
  constructor
  · intro h x y hx hy hallowed
    exact eq_mark_of_findsSame hx hy (h _ _ _ _ (forall₂_quotedThenImport hx hy hallowed))
  · intro hmark source other t u h
    refine FindsSame.of_sameRole ?_
    rw [tokens, tokens, List.forall₂_map_left_iff, List.forall₂_map_right_iff]
    exact h.imp fun leaf leaf' hleaf => hleaf.sameRole hmark

/-- Not all contents are ignored: one is taken for a brace. -/
theorem findsSame_fails :
    ¬ ∀ (source other : List UInt8) (t u : SyntaxTree),
      List.Forall₂ (Leaf.Rewrites fun _ _ => True) (leaves source t) (leaves other u) →
        FindsSame (tokens source t) (tokens other u) := by
  intro h
  have hx : isBlankText interpolationMark = false := by decide
  have hy : isBlankText "text" = false := by decide
  have hsame := h _ _ _ _ (forall₂_quotedThenImport hx hy trivial)
  exact absurd ((eq_mark_of_findsSame hx hy hsame).mp rfl) (by decide)

end SyntaxTree
end ClassLineage
