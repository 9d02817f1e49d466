import ClassLineage.Php.SyntaxTree
import ClassLineage.Proofs.Text.Utf8

/-!
# What the tokens of a source cover

The leaves of a syntax tree are visited by a list of trees still to visit, and those that cover
nothing are left out.  What is left makes the tokens, one each, from left to right.  The text of a
token is read from the bytes that its leaf covers, and from no others: this loses nothing where
leaves start and end between characters.

## Main definitions

* `SyntaxTree.covering` — the leaves that cover bytes of the source.
* `SyntaxTree.tokenOf` — the token of one of these.
* `SyntaxTree.Parts` — leaves divide a text, from left to right and between characters.
* `SyntaxTree.gaps` — the bytes that leaves leave uncovered.
* `SyntaxTree.putBack` — tokens written between such bytes.

## Main results

* `SyntaxTree.walk_eq` — trees are visited from left to right.
* `SyntaxTree.tokens_eq` — each leaf that covers anything makes a token, and no other does.
* `SyntaxTree.Parts.exists_text` — the text of a token stands where its leaf does.
* `SyntaxTree.putBack_gaps` — tokens and uncovered bytes make up the source.
* `SyntaxTree.tokens_putBack` — **the leaves that cover anything make the tokens, and between the
  uncovered bytes these give the source.**
-/

namespace ClassLineage

open Text

/-- The node covers bytes of a source: no parser supplied it, and it does not end where it
starts. -/
def SyntaxNode.Covers (n : SyntaxNode) : Prop := n.missing = false ∧ n.start < n.stop

instance (n : SyntaxNode) : Decidable n.Covers :=
  inferInstanceAs (Decidable (n.missing = false ∧ n.start < n.stop))

namespace SyntaxTree

/-! ### The leaves that are visited -/

theorem endsOfAll_append (ts us : List SyntaxTree) :
    endsOfAll (ts ++ us) = endsOfAll ts ++ endsOfAll us := by
  induction ts with
  | nil => rfl
  | cons t ts ih => rw [List.cons_append, endsOfAll, endsOfAll, ih, List.append_assoc]

/-- **Trees are visited from left to right,** as the recursion over them finds their leaves. -/
theorem walk_eq (ts : List SyntaxTree) : walk ts = endsOfAll ts := by
  fun_induction walk ts with
  | case1 => rfl
  | case2 here rest ih => rw [ih, endsOfAll, ends, List.singleton_append]
  | case3 here c cs rest ih =>
    -- the children take the place of their tree
    rw [ih, endsOfAll_append]
    rfl

/-- The leaves of a tree that cover bytes of the source, from left to right. -/
def covering (t : SyntaxTree) : List SyntaxNode := t.ends.filter fun n => n.Covers

/-- The token of a leaf: its text is what stands in the source between its ends. -/
def tokenOf (source : List UInt8) (n : SyntaxNode) : Token :=
  let text := Utf8.decode (slice source n.start n.stop)
  ⟨.classify n.label text n.named, text, n.row + 1⟩

theorem map_leaf? (source : List UInt8) (n : SyntaxNode) :
    (leaf? source n).map Leaf.toToken = if n.Covers then some (tokenOf source n) else none := by
  have hcovers : (n.missing || n.stop ≤ n.start) = true ↔ ¬n.Covers := by
    cases hmissing : n.missing <;> simp [SyntaxNode.Covers, hmissing]
  rw [leaf?]
  by_cases h : n.Covers
  · rw [if_neg (mt hcovers.mp (not_not_intro h)), if_pos h]
    rfl
  · rw [if_pos (hcovers.mpr h), if_neg h]
    rfl

/-- **Each leaf that covers anything makes a token,** and no other does. -/
theorem tokens_eq (source : List UInt8) (t : SyntaxTree) :
    tokens source t = t.covering.map (tokenOf source) := by
  have hends : walk [t] = t.ends := by rw [walk_eq, endsOfAll, endsOfAll, List.append_nil]
  rw [tokens, leaves, hends, covering, List.map_filterMap]
  induction t.ends with
  | nil => rfl
  | cons n ns ih =>
    by_cases h : n.Covers
    · rw [List.filterMap_cons_some (by rw [map_leaf?, if_pos h]), ih,
        List.filter_cons_of_pos (by simpa using h), List.map_cons]
    · rw [List.filterMap_cons_none (by rw [map_leaf?, if_neg h]), ih,
        List.filter_cons_of_neg (by simpa using h)]

/-! ### Bytes of the source -/

theorem slice_encode (before mid after : String) :
    slice (Utf8.encode (before ++ mid ++ after)) before.utf8ByteSize (before ++ mid).utf8ByteSize
      = Utf8.encode mid := by
  rw [slice, ← Utf8.length_encode, ← Utf8.length_encode, Utf8.encode_append (before ++ mid),
    List.take_left, Utf8.encode_append, List.drop_left]

theorem slice_append_drop (source : List UInt8) {m n : Nat} (h : m ≤ n) :
    slice source m n ++ source.drop n = source.drop m := by
  have hrest : (source.drop n).drop (m - (source.take n).length) = source.drop n := by
    rw [List.drop_drop, List.length_take]
    rcases Nat.le_total n source.length with hn | hn
    · rw [Nat.min_eq_left hn, Nat.sub_eq_zero_of_le h, Nat.add_zero]
    · rw [List.drop_of_length_le hn, List.drop_of_length_le (Nat.le_add_right_of_le hn)]
  calc slice source m n ++ source.drop n
      = (source.take n).drop m ++ (source.drop n).drop (m - (source.take n).length) := by
        rw [slice, hrest]
    _ = (source.take n ++ source.drop n).drop m := List.drop_append.symm
    _ = source.drop m := by rw [List.take_append_drop]

/-- The bytes that leaves leave uncovered from a place on: before each of them, and after the
last. -/
def gaps (source : List UInt8) (place : Nat) : List SyntaxNode → List (List UInt8)
  | [] => [source.drop place]
  | n :: ns => slice source place n.start :: gaps source n.stop ns

/-- Tokens written one after the other, each after a piece of bytes; what is left of the pieces
comes last, or what is left of the tokens. -/
def putBack : List (List UInt8) → List Token → List UInt8
  | gap :: rest, t :: ts => gap ++ Utf8.encode t.text ++ putBack rest ts
  | rest, [] => rest.flatten
  | [], t :: ts => (t :: ts).flatMap fun t => Utf8.encode t.text

/-! ### Texts divided by leaves -/

/-- Leaves divide a text: each starts and ends between characters of it, and each ends before the
next ones start. -/
structure Parts (s : String) (ns : List SyntaxNode) : Prop where
  /-- Each starts between characters, or at an end of the text. -/
  start : ∀ n ∈ ns, String.Pos.Raw.IsValid s ⟨n.start⟩
  /-- Each ends there. -/
  stop : ∀ n ∈ ns, String.Pos.Raw.IsValid s ⟨n.stop⟩
  /-- They stand in order, and no two cover the same. -/
  pairwise : ns.Pairwise fun m n => m.stop ≤ n.start

instance (s : String) (ns : List SyntaxNode) : Decidable (Parts s ns) :=
  decidable_of_iff ((∀ n ∈ ns, String.Pos.Raw.IsValid s ⟨n.start⟩)
      ∧ (∀ n ∈ ns, String.Pos.Raw.IsValid s ⟨n.stop⟩)
      ∧ ns.Pairwise fun m n => m.stop ≤ n.start)
    ⟨fun h => ⟨h.1, h.2.1, h.2.2⟩, fun h => ⟨h.start, h.stop, h.pairwise⟩⟩

theorem Parts.tail {s : String} {n : SyntaxNode} {ns : List SyntaxNode} (h : Parts s (n :: ns)) :
    Parts s ns where
  start m hm := h.start m (List.mem_cons_of_mem n hm)
  stop m hm := h.stop m (List.mem_cons_of_mem n hm)
  pairwise := h.pairwise.tail

variable {s : String} {ns : List SyntaxNode} {n : SyntaxNode}

/-- **The text of a token stands in the source where its leaf does.** -/
theorem Parts.exists_text (h : Parts s ns) (hn : n ∈ ns) (hcovers : n.Covers) :
    ∃ before after, s = before ++ (tokenOf (Utf8.encode s) n).text ++ after
      ∧ before.utf8ByteSize = n.start
      ∧ (before ++ (tokenOf (Utf8.encode s) n).text).utf8ByteSize = n.stop := by
  obtain ⟨before, mid, after, rfl, hstart, hstop⟩ :=
    Utf8.exists_between (h.start n hn) (h.stop n hn) (Nat.le_of_lt hcovers.2)
  have htext : (tokenOf (Utf8.encode (before ++ mid ++ after)) n).text = mid := by
    rw [tokenOf, ← hstart, ← hstop, slice_encode, Utf8.decode_encode]
  rw [htext]
  exact ⟨before, after, rfl, hstart, hstop⟩

/-- The bytes of the text of a token are those that its leaf covers. -/
theorem Parts.encode_text (h : Parts s ns) (hn : n ∈ ns) (hcovers : n.Covers) :
    Utf8.encode (tokenOf (Utf8.encode s) n).text = slice (Utf8.encode s) n.start n.stop := by
  obtain ⟨before, after, hs, hstart, hstop⟩ := h.exists_text hn hcovers
  have hslice := slice_encode before (tokenOf (Utf8.encode s) n).text after
  rw [← hs, hstart, hstop] at hslice
  exact hslice.symm

/-- **Tokens and uncovered bytes make up the source** from a place on that is before all leaves. -/
theorem putBack_gaps (h : Parts s ns) (hcovers : ∀ n ∈ ns, n.Covers) (place : Nat)
    (hplace : ∀ n ∈ ns, place ≤ n.start) :
    putBack (gaps (Utf8.encode s) place ns) (ns.map (tokenOf (Utf8.encode s)))
      = (Utf8.encode s).drop place := by
  induction ns generalizing place with
  | nil => rw [gaps, List.map_nil, putBack, List.flatten_singleton]
  | cons n ns ih =>
    have hn := hcovers n List.mem_cons_self
    have hrest := ih h.tail (fun m hm => hcovers m (List.mem_cons_of_mem n hm)) n.stop
      fun m hm => List.rel_of_pairwise_cons h.pairwise hm
    rw [gaps, List.map_cons, putBack, hrest, h.encode_text List.mem_cons_self hn, List.append_assoc,
      slice_append_drop _ (Nat.le_of_lt hn.2), slice_append_drop _ (hplace n List.mem_cons_self)]

/-- **The leaves that cover anything make the tokens,** one each, from left to right.  If they
divide a text whose bytes are the source, the text of each token stands where its leaf does, and
put back between the uncovered bytes the tokens give the source. -/
theorem tokens_putBack (source : List UInt8) (t : SyntaxTree) :
    tokens source t = t.covering.map (tokenOf source)
      ∧ ∀ s, source = Utf8.encode s → Parts s t.covering →
        (∀ n ∈ t.covering, ∃ before after, s = before ++ (tokenOf source n).text ++ after
          ∧ before.utf8ByteSize = n.start
          ∧ (before ++ (tokenOf source n).text).utf8ByteSize = n.stop)
        ∧ putBack (gaps source 0 t.covering) (tokens source t) = source := by
  have hcovers : ∀ n ∈ t.covering, n.Covers := fun n hn => by
    simpa using (List.mem_filter.mp hn).2
  refine ⟨tokens_eq source t, fun s hs hparts => ?_⟩
  subst hs
  refine ⟨fun n hn => hparts.exists_text hn (hcovers n hn), ?_⟩
  rw [tokens_eq, putBack_gaps hparts hcovers 0 fun n _ => Nat.zero_le _, List.drop_zero]

/-- A source with characters of two bytes. -/
def accentedText : String := "<?= ça.été"

/-- A tree of `accentedText`, with a leaf that a parser supplied. -/
def accentedTree : SyntaxTree :=
  .node ⟨"program", true, false, 0, 13, 0⟩ [
    .node ⟨"php_tag", true, false, 0, 3, 0⟩ [],
    .node ⟨"expression_statement", true, false, 4, 13, 0⟩ [
      .node ⟨"binary_expression", true, false, 4, 13, 0⟩ [
        .node ⟨"name", true, false, 4, 7, 0⟩ [],
        .node ⟨".", false, false, 7, 8, 0⟩ [],
        .node ⟨"name", true, false, 8, 13, 0⟩ []],
      .node ⟨";", false, true, 13, 13, 0⟩ []]]

/-- The four leaves that cover anything make the tokens, and only the blank is uncovered. -/
theorem tokens_putBack_accented :
    Parts accentedText accentedTree.covering
    ∧ (tokens (Utf8.encode accentedText) accentedTree).map (·.text) = ["<?=", "ça", ".", "été"]
    ∧ gaps (Utf8.encode accentedText) 0 accentedTree.covering = [[], [0x20], [], [], []]
    ∧ putBack (gaps (Utf8.encode accentedText) 0 accentedTree.covering)
        (tokens (Utf8.encode accentedText) accentedTree) = Utf8.encode accentedText := by
  have hparts : Parts accentedText accentedTree.covering := by decide +kernel
  obtain ⟨htokens, hgives⟩ := tokens_putBack (Utf8.encode accentedText) accentedTree
  refine ⟨hparts, ?_, by decide +kernel, (hgives _ rfl hparts).2⟩
  rw [htokens]
  decide +kernel

end SyntaxTree
end ClassLineage
