import ClassLineage.Proofs.Name
import ClassLineage.Proofs.Token.Reduction
import Mathlib.Data.String.Basic

/-!
# The grammar of names and blocks

What a well-formed file is made of at the smallest scale: names of segments between
separators, lists of names between commas, and blocks whose braces balance.  The grammar
is given by relations between a text and the tokens that write it, with no trivia among
them; the movers read back what the relations write.

## Main definitions

* `WritesSegments`, `WritesName` — tokens that write a name, without and with a leading
  separator.
* `WritesNames` — tokens that write a list of names.
* `Balanced` — tokens whose braces balance.

## Main results

* `collectName_append` — a name is collected as it is written.
* `skipBalanced_append` — balanced tokens are skipped whatever is open.
-/

namespace ClassLineage
namespace Token

/-! ### Names -/

/-- A segment of a name: it holds something, and no separator. -/
structure IsSegment (t : Token) : Prop where
  /-- It is of the kind of the segments of names. -/
  kind : t.kind = .name
  /-- It is not empty. -/
  ne_empty : t.text ≠ ""
  /-- It holds no separator. -/
  all_ne : t.text.toList.any Name.isSeparator = false

/-- `WritesSegments text last ts` — the tokens `ts` write segments joined by separators;
`text` is what they write together and `last` the last segment. -/
inductive WritesSegments : String → String → List Token → Prop
  | one {t : Token} (ht : IsSegment t) : WritesSegments t.text t.text [t]
  | join {t s : Token} {text last : String} {ts : List Token} (ht : IsSegment t)
      (hs : s.kind = .separator) (h : WritesSegments text last ts) :
      WritesSegments (t.text ++ (s.text ++ text)) last (t :: s :: ts)

/-- `WritesName text ts` — the tokens `ts` write the name `text`, which may start with a
separator. -/
inductive WritesName : String → List Token → Prop
  | plain {text last : String} {ts : List Token} (h : WritesSegments text last ts) :
      WritesName text ts
  | rooted {s : Token} {text last : String} {ts : List Token} (hs : s.kind = .separator)
      (h : WritesSegments text last ts) : WritesName (s.text ++ text) (s :: ts)

/-- `WritesNames names ts` — the tokens `ts` write the names, at least one, between
commas. -/
inductive WritesNames : List String → List Token → Prop
  | one {name : String} {ts : List Token} (h : WritesName name ts) : WritesNames [name] ts
  | more {name : String} {names : List String} {comma : Token} {ts us : List Token}
      (h : WritesName name ts) (hc : comma.isComma = true) (hs : WritesNames names us) :
      WritesNames (name :: names) (ts ++ comma :: us)

theorem isNamePart_of_separator {t : Token} (h : t.kind = .separator) : t.isNamePart = true := by
  simp [isNamePart, h]

theorem IsSegment.isNamePart {t : Token} (h : IsSegment t) : t.isNamePart = true := by
  simp [Token.isNamePart, h.kind]

theorem isInName_of_isNamePart {t : Token} (h : t.isNamePart = true) : t.isInName = true := by
  simp [isInName, h]

theorem isTrivia_of_isNamePart {t : Token} (h : t.isNamePart = true) : t.isTrivia = false := by
  rw [isNamePart, Bool.or_eq_true, beq_iff_eq, beq_iff_eq] at h
  rcases h with h | h <;> simp [isTrivia, h]

theorem isSymbol_of_isNamePart {t : Token} (h : t.isNamePart = true) (s : String) :
    t.isSymbol s = false := by
  rw [isNamePart, Bool.or_eq_true, beq_iff_eq, beq_iff_eq] at h
  rcases h with h | h <;> simp [isSymbol, h]

theorem isKeyword_of_isNamePart {t : Token} (h : t.isNamePart = true) (k : Keyword) :
    t.isKeyword k = false := by
  rw [isNamePart, Bool.or_eq_true, beq_iff_eq, beq_iff_eq] at h
  rcases h with h | h <;> simp [isKeyword, h]

theorem isInName_of_isKeyword {t : Token} {k : Keyword} (h : t.isKeyword k = true) :
    t.isInName = false := by
  have hkind : t.kind = .keyword k := by simpa [isKeyword] using h
  simp [isInName, isNamePart, isTrivia, hkind]

theorem isInName_of_isSymbol {t : Token} {s : String} (h : t.isSymbol s = true) :
    t.isInName = false := by
  rw [isSymbol, Bool.and_eq_true, beq_iff_eq] at h
  simp [isInName, isNamePart, isTrivia, h.1]

theorem isKeyword_of_isSymbol {t : Token} {s : String} (h : t.isSymbol s = true) (k : Keyword) :
    t.isKeyword k = false := by
  rw [isSymbol, Bool.and_eq_true, beq_iff_eq] at h
  simp [isKeyword, h.1]

theorem isSymbol_of_isInName {t : Token} (h : t.isInName = true) (s : String) :
    t.isSymbol s = false := by
  rw [isInName, Bool.or_eq_true] at h
  rcases h with h | h
  · exact isSymbol_of_isNamePart h s
  · exact isSymbol_of_isTrivia h s

theorem isKeyword_of_isInName {t : Token} (h : t.isInName = true) (k : Keyword) :
    t.isKeyword k = false := by
  rw [isInName, Bool.or_eq_true] at h
  rcases h with h | h
  · exact isKeyword_of_isNamePart h k
  · exact isKeyword_of_isTrivia h k

theorem isSymbol_of_isKeyword {t : Token} {k : Keyword} (h : t.isKeyword k = true) (s : String) :
    t.isSymbol s = false := by
  have hkind : t.kind = .keyword k := by simpa [isKeyword] using h
  simp [isSymbol, hkind]

theorem isKeyword_of_ne {t : Token} {k l : Keyword} (h : t.isKeyword k = true) (hne : k ≠ l) :
    t.isKeyword l = false := by
  have hkind : t.kind = .keyword k := by simpa [isKeyword] using h
  simp [isKeyword, hkind, hne]

theorem opensBlock_of_isComma {t : Token} (h : t.isComma = true) : t.opensBlock = false := by
  rw [isComma, isSymbol, Bool.and_eq_true, beq_iff_eq, beq_iff_eq] at h
  simp [opensBlock, isSymbol, h.1, h.2]

theorem closesBlock_of_isComma {t : Token} (h : t.isComma = true) : t.closesBlock = false := by
  rw [isComma, isSymbol, Bool.and_eq_true, beq_iff_eq, beq_iff_eq] at h
  simp [closesBlock, isSymbol, h.2]

theorem opensBlock_of_isSemicolon {t : Token} (h : t.isSemicolon = true) :
    t.opensBlock = false := by
  rw [isSemicolon, isSymbol, Bool.and_eq_true, beq_iff_eq, beq_iff_eq] at h
  simp [opensBlock, isSymbol, h.1, h.2]

theorem closesBlock_of_isSemicolon {t : Token} (h : t.isSemicolon = true) :
    t.closesBlock = false := by
  rw [isSemicolon, isSymbol, Bool.and_eq_true, beq_iff_eq, beq_iff_eq] at h
  simp [closesBlock, isSymbol, h.2]

theorem isSemicolon_of_isComma {t : Token} (h : t.isComma = true) : t.isSemicolon = false := by
  rw [isComma, isSymbol, Bool.and_eq_true, beq_iff_eq, beq_iff_eq] at h
  simp [isSemicolon, isSymbol, h.2]

theorem WritesSegments.isNamePart {text last : String} {ts : List Token}
    (h : WritesSegments text last ts) : ∀ t ∈ ts, t.isNamePart = true := by
  induction h with
  | one ht =>
    intro u hu
    rw [List.mem_singleton] at hu
    exact hu ▸ ht.isNamePart
  | join ht hs _ ih =>
    intro u hu
    rcases List.mem_cons.mp hu with rfl | hu
    · exact ht.isNamePart
    · rcases List.mem_cons.mp hu with rfl | hu
      · exact isNamePart_of_separator hs
      · exact ih u hu

theorem WritesName.isNamePart {text : String} {ts : List Token} (h : WritesName text ts) :
    ∀ t ∈ ts, t.isNamePart = true := by
  cases h with
  | plain h => exact h.isNamePart
  | rooted hs h =>
    intro u hu
    rcases List.mem_cons.mp hu with rfl | hu
    · exact isNamePart_of_separator hs
    · exact h.isNamePart u hu

theorem join_text_cons (t : Token) (ts : List Token) :
    String.join ((t :: ts).map (·.text)) = t.text ++ String.join (ts.map (·.text)) := by
  rw [← String.toList_inj]
  simp [String.toList_join]

theorem WritesSegments.join_text {text last : String} {ts : List Token}
    (h : WritesSegments text last ts) : String.join (ts.map (·.text)) = text := by
  induction h with
  | one _ => rw [join_text_cons, List.map_nil, String.join_nil, String.append_empty]
  | join _ _ _ ih => rw [join_text_cons, join_text_cons, ih]

theorem WritesName.join_text {text : String} {ts : List Token} (h : WritesName text ts) :
    String.join (ts.map (·.text)) = text := by
  cases h with
  | plain h => exact h.join_text
  | rooted _ h => rw [join_text_cons, h.join_text]

theorem WritesName.ne_nil {text : String} {ts : List Token} (h : WritesName text ts) : ts ≠ [] := by
  cases h with
  | plain h => cases h <;> exact List.cons_ne_nil _ _
  | rooted _ _ => exact List.cons_ne_nil _ _

/-- A run of parts of a name is collected, up to a token that cannot stand in a name. -/
theorem collectName_run {ts : List Token} (hne : ts ≠ [])
    (hpart : ∀ u ∈ ts, u.isNamePart = true) {t : Token} (ht : t.isInName = false)
    (rest : List Token) :
    collectName (ts ++ t :: rest) = (some (String.join (ts.map (·.text))), t :: rest) := by
  have hin : ∀ u ∈ ts, u.isInName = true := fun u hu => isInName_of_isNamePart (hpart u hu)
  have hfilter : ts.filter isNamePart = ts := List.filter_eq_self.mpr hpart
  have htext : Token.nameText ts = some (String.join (ts.map (·.text))) := by
    rw [Token.nameText, hfilter]
    cases ts with
    | nil => exact absurd rfl hne
    | cons u us => rfl
  rw [collectName, List.takeWhile_append_of_pos hin, List.dropWhile_append_of_pos hin,
    List.takeWhile_cons_of_neg (by simp [ht]), List.dropWhile_cons_of_neg (by simp [ht]),
    List.append_nil, htext]

/-- A name is collected as it is written. -/
theorem collectName_append {text : String} {ts : List Token} (h : WritesName text ts) {t : Token}
    (ht : t.isInName = false) (rest : List Token) :
    collectName (ts ++ t :: rest) = (some text, t :: rest) := by
  rw [collectName_run h.ne_nil h.isNamePart ht, h.join_text]

/-- Where no name stands, none is collected. -/
theorem collectName_of_not_isInName {t : Token} (ht : t.isInName = false) (rest : List Token) :
    collectName (t :: rest) = (none, t :: rest) := by
  rw [collectName, List.takeWhile_cons_of_neg (by simp [ht]),
    List.dropWhile_cons_of_neg (by simp [ht])]
  rfl

/-- A segment is more than separators. -/
theorem IsSegment.hasSubstance {t : Token} (h : IsSegment t) : Name.hasSubstance t.text = true := by
  rw [Name.hasSubstance, List.any_eq_true]
  cases hl : t.text.toList with
  | nil => exact absurd (String.toList_eq_nil_iff.mp hl) h.ne_empty
  | cons c cs =>
    have hany := h.all_ne
    rw [hl, List.any_cons, Bool.or_eq_false_iff] at hany
    exact ⟨c, List.mem_cons_self, by rw [hany.1]; rfl⟩

theorem hasSubstance_append_left {a : String} (h : Name.hasSubstance a = true) (b : String) :
    Name.hasSubstance (a ++ b) = true := by
  rw [Name.hasSubstance, String.toList_append, List.any_append]
  rw [Name.hasSubstance] at h
  rw [h, Bool.true_or]

theorem hasSubstance_append_right (a : String) {b : String} (h : Name.hasSubstance b = true) :
    Name.hasSubstance (a ++ b) = true := by
  rw [Name.hasSubstance, String.toList_append, List.any_append]
  rw [Name.hasSubstance] at h
  rw [h, Bool.or_true]

theorem WritesSegments.hasSubstance {text last : String} {ts : List Token}
    (h : WritesSegments text last ts) : Name.hasSubstance text = true := by
  cases h with
  | one ht => exact ht.hasSubstance
  | join ht _ _ => exact hasSubstance_append_left ht.hasSubstance _

/-- A name that is written is more than separators. -/
theorem WritesName.hasSubstance {text : String} {ts : List Token} (h : WritesName text ts) :
    Name.hasSubstance text = true := by
  cases h with
  | plain h => exact h.hasSubstance
  | rooted _ h => exact hasSubstance_append_right _ h.hasSubstance

/-- The characters of a segment are no separators. -/
theorem IsSegment.isSeparator {t : Token} (h : IsSegment t) {c : Char} (hc : c ∈ t.text.toList) :
    Name.isSeparator c = false := by
  rw [← Bool.not_eq_true]
  exact List.any_eq_false.mp h.all_ne c hc

theorem IsSegment.isTight {t : Token} (h : IsSegment t) : Name.IsTight t.text := by
  have hne : t.text.toList ≠ [] := fun hnil => h.ne_empty (String.toList_eq_nil_iff.mp hnil)
  constructor
  · obtain ⟨c, cs, hcs⟩ := List.exists_cons_of_ne_nil hne
    exact ⟨c, cs, hcs, h.isSeparator (hcs ▸ List.mem_cons_self)⟩
  · refine ⟨t.text.toList.dropLast, t.text.toList.getLast hne, ?_,
      h.isSeparator (List.getLast_mem hne)⟩
    exact (List.dropLast_concat_getLast hne).symm

/-- A name without a leading separator starts and ends inside a segment. -/
theorem WritesSegments.isTight {text last : String} {ts : List Token}
    (h : WritesSegments text last ts) : Name.IsTight text := by
  induction h with
  | one ht => exact ht.isTight
  | @join t s text last ts ht _ _ ih =>
    -- the first character is one of the first segment, the last one of the last
    obtain ⟨c, cs, hcs, hc⟩ := ht.isTight.first
    obtain ⟨ds, d, hds, hd⟩ := ih.last
    constructor
    · refine ⟨c, cs ++ (s.text.toList ++ text.toList), ?_, hc⟩
      rw [String.toList_append, String.toList_append, hcs, List.cons_append]
    · refine ⟨t.text.toList ++ (s.text.toList ++ ds), d, ?_, hd⟩
      rw [String.toList_append, String.toList_append, hds, List.append_assoc, List.append_assoc]

theorem WritesNames.hasSubstance {names : List String} {ts : List Token}
    (h : WritesNames names ts) : ∀ name ∈ names, Name.hasSubstance name = true := by
  induction h with
  | one h =>
    intro n hn
    rw [List.mem_singleton] at hn
    exact hn ▸ h.hasSubstance
  | more h _ _ ih =>
    intro n hn
    rcases List.mem_cons.mp hn with rfl | hn
    · exact h.hasSubstance
    · exact ih n hn

/-- No token of a name ends a statement or opens a block. -/
theorem WritesName.opensBlock {name : String} {ts : List Token} (h : WritesName name ts)
    (hq : OpensOutsideNames ts) : ∀ t ∈ ts, t.opensBlock = false ∧ t.isSemicolon = false := by
  intro t ht
  have hpart := h.isNamePart t ht
  exact ⟨hq t ht (isInName_of_isNamePart hpart), isSymbol_of_isNamePart hpart _⟩

/-- No token of a list of names does either. -/
theorem WritesNames.opensBlock {names : List String} {ts : List Token}
    (h : WritesNames names ts) (hq : OpensOutsideNames ts) :
    ∀ t ∈ ts, t.opensBlock = false ∧ t.isSemicolon = false := by
  induction h with
  | one h => exact h.opensBlock hq
  | more h hc _ ih =>
    intro t ht
    rcases List.mem_append.mp ht with ht | ht
    · exact h.opensBlock (hq.of_subset (List.subset_append_left _ _)) t ht
    · rcases List.mem_cons.mp ht with rfl | ht
      · exact ⟨opensBlock_of_isComma hc, isSemicolon_of_isComma hc⟩
      · exact ih (hq.of_suffix ((List.suffix_cons _ _).trans (List.suffix_append _ _))) t ht

/-- No token of a list of names is a keyword. -/
theorem WritesNames.isKeyword {names : List String} {ts : List Token}
    (h : WritesNames names ts) (k : Keyword) : ∀ t ∈ ts, t.isKeyword k = false := by
  induction h with
  | one h =>
    intro t ht
    exact isKeyword_of_isNamePart (h.isNamePart t ht) k
  | more h hc _ ih =>
    intro t ht
    rcases List.mem_append.mp ht with ht | ht
    · exact isKeyword_of_isNamePart (h.isNamePart t ht) k
    · rcases List.mem_cons.mp ht with rfl | ht
      · exact isKeyword_of_isSymbol hc k
      · exact ih t ht

/-! ### Blocks -/

/-- Tokens whose braces balance. -/
inductive Balanced : List Token → Prop
  | nil : Balanced []
  | plain {t : Token} {ts : List Token} (ho : t.opensBlock = false) (hc : t.closesBlock = false)
      (h : Balanced ts) : Balanced (t :: ts)
  | block {o c : Token} {inner ts : List Token} (ho : o.opensBlock = true) (hin : Balanced inner)
      (hc : c.closesBlock = true) (h : Balanced ts) : Balanced (o :: (inner ++ c :: ts))

/-- No token both opens and closes a block. -/
theorem opensBlock_of_closesBlock {t : Token} (h : t.closesBlock = true) :
    t.opensBlock = false := by
  rw [closesBlock, isSymbol, Bool.and_eq_true, beq_iff_eq, beq_iff_eq] at h
  simp [opensBlock, isSymbol, h.1, h.2]

/-- Balanced tokens are skipped, whatever is open around them. -/
theorem skipBalanced_append {ts : List Token} (h : Balanced ts) (depth : Nat) (rest : List Token) :
    skipBalanced (depth + 1) (ts ++ rest) = skipBalanced (depth + 1) rest := by
  induction h generalizing depth rest with
  | nil => rfl
  | plain ho hc _ ih =>
    rw [List.cons_append, skipBalanced, ho, hc]
    exact ih depth rest
  | @block o c inner ts ho _ hc _ ihin ih =>
    -- inside of the block one more is open, and its brace takes the depth back
    have hco := opensBlock_of_closesBlock hc
    rw [List.cons_append, List.append_assoc, skipBalanced, if_pos ho, ihin, List.cons_append,
      skipBalanced, hco, if_neg Bool.false_ne_true, if_pos hc, if_neg (by omega)]
    exact ih depth rest

/-- A block is skipped with all that is in it. -/
theorem skipBalanced_block {o c : Token} {inner : List Token} (ho : o.opensBlock = true)
    (hin : Balanced inner) (hc : c.closesBlock = true) (rest : List Token) :
    skipBalanced 0 (o :: (inner ++ c :: rest)) = rest := by
  have hco := opensBlock_of_closesBlock hc
  rw [skipBalanced, if_pos ho, skipBalanced_append hin, skipBalanced, hco,
    if_neg Bool.false_ne_true, if_pos hc, if_pos (by omega)]

end Token

open Token

namespace NamespaceHead

/-! ### Heads of namespaces -/

/-- The head of a namespace is read as it is written. -/
theorem read_segments {name last : String} {ts : List Token} (h : WritesSegments name last ts)
    {stop : Token} (hin : stop.isInName = false)
    (hs : stop.isSemicolon = true ∨ stop.opensBlock = true) (rest : List Token) :
    read (ts ++ stop :: rest) = ⟨some name, rest⟩ := by
  -- the name starts with a segment, so that the head is not that of a relative name
  have hrel : isRelative (ts ++ stop :: rest) = false := by
    have hsegment : ∀ {t : Token}, IsSegment t → ∀ us : List Token,
        isRelative (t :: us) = false := by
      intro t ht us
      rw [isRelative, skipTrivia_cons (isTrivia_of_isNamePart ht.isNamePart)]
      simp [ht.kind]
    cases h with
    | one ht => exact hsegment ht _
    | join ht _ _ => exact hsegment ht _
  have hend : (stop.isSemicolon || stop.opensBlock) = true := by
    rw [Bool.or_eq_true]
    exact hs
  rw [read, hrel, if_neg Bool.false_ne_true, collectName_append (.plain h) hin]
  simp only [Option.getD_some, h.isTight.trimSeparators, dropEnd, hend, if_true]

/-- The head of a namespace without a name is that of the global namespace. -/
theorem read_global {o : Token} (hin : o.isInName = false) (ho : o.opensBlock = true)
    (rest : List Token) : read (o :: rest) = ⟨some "", rest⟩ := by
  have hkind : o.kind ≠ .separator := by
    intro hk
    rw [isInName_of_isNamePart (isNamePart_of_separator hk)] at hin
    exact Bool.false_ne_true hin.symm
  have hrel : isRelative (o :: rest) = false := by
    rw [isRelative, skipTrivia_cons (isTrivia_of_isInName hin)]
    simp [hkind]
  rw [read, hrel, if_neg Bool.false_ne_true, collectName_of_not_isInName hin]
  simp only [dropEnd, ho, Bool.or_true, if_true]
  rfl

/-- The token that ends a head opens its block, or none is opened. -/
theorem opensBlock_append (ts : List Token) (stop : Token) (rest : List Token)
    (declared : Option String) :
    opensBlock (ts ++ stop :: rest) ⟨declared, rest⟩ = stop.opensBlock := by
  have hsplit : ts ++ stop :: rest = (ts ++ [stop]) ++ rest := by
    rw [List.append_assoc, List.singleton_append]
  rw [opensBlock_of_eq hsplit, List.getLast?_concat]
  rfl

/-- A head takes pieces of names and trivia, and the token that ends it. -/
theorem read_taken (ts : List Token) :
    ∃ taken, ts = taken ++ (read ts).rest ∧
      ∀ t ∈ taken, t.isInName = true ∨ t.isSemicolon = true ∨ t.opensBlock = true := by
  have hsplit : ts = ts.takeWhile isInName ++ (collectName ts).2 :=
    List.takeWhile_append_dropWhile.symm
  have hrun : ∀ t ∈ ts.takeWhile isInName,
      t.isInName = true ∨ t.isSemicolon = true ∨ t.opensBlock = true :=
    fun t ht => Or.inl (List.mem_takeWhile_imp ht)
  rw [read]
  by_cases hrel : isRelative ts = true
  · rw [if_pos hrel]
    exact ⟨ts.takeWhile isTrivia, List.takeWhile_append_dropWhile.symm, fun t ht =>
      Or.inl (isInName_of_isTrivia (List.mem_takeWhile_imp ht))⟩
  rw [if_neg hrel]
  show ∃ taken, ts = taken ++ dropEnd (collectName ts).2 ∧ _
  cases hc : (collectName ts).2 with
  | nil =>
    rw [hc] at hsplit
    exact ⟨_, hsplit, hrun⟩
  | cons t rest =>
    rw [hc] at hsplit
    rw [dropEnd]
    by_cases hend : (t.isSemicolon || t.opensBlock) = true
    · rw [if_pos hend]
      refine ⟨ts.takeWhile isInName ++ [t], by rw [List.append_assoc]; exact hsplit,
        fun u hu => ?_⟩
      rcases List.mem_append.mp hu with hu | hu
      · exact hrun u hu
      · rw [List.mem_singleton.mp hu]
        exact Or.inr (Bool.or_eq_true_iff.mp hend)
    · rw [if_neg hend]
      exact ⟨_, hsplit, hrun⟩

end NamespaceHead
end ClassLineage
