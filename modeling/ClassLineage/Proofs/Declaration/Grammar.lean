import ClassLineage.Proofs.Declaration.Reduction
import ClassLineage.Proofs.Token.Grammar
import Mathlib.Data.List.Forall2

/-!
# The declarations of a well-formed file

A grammar for files: heads of namespaces, classes with headers and bodies, headers of
interfaces, and tokens that declare nothing.  The grammar relates the tokens of a file,
trivia apart, to the outlines of its declarations, and the scanner reads exactly these:
one record for each declaration, in order, every name of it resolved.

## Main definitions

* `WritesClause` — the part of a header that a keyword starts.
* `WritesBody` — the body of a class, with the traits it uses.
* `IsInert` — a token that starts no declaration.
* `WritesFile` — a file, with the outlines of its declarations.
* `Outline.IsRecordedAs` — the record that an outline stands for.

## Main results

* `readFrom_file` — the outlines of a well-formed file are read as they are written.
* `scanWith_wellFormed` — **a well-formed file gives exactly the records of its
  declarations.**
-/

namespace ClassLineage

open Token

namespace Outline

/-! ### The grammar -/

/-- `WritesClause k names ts` — the tokens `ts` are a clause of the keyword `k` with these
names; without names there is no clause. -/
inductive WritesClause (k : Keyword) : List String → List Token → Prop
  | absent : WritesClause k [] []
  | present {word : Token} {names : List String} {ts : List Token}
      (hw : word.isKeyword k = true) (h : WritesNames names ts) :
      WritesClause k names (word :: ts)

/-- `WritesBody traits ts` — the tokens `ts` are the body of a class, without its braces,
that uses these traits: any mix of statements that use traits, with or without a block
that adapts them, of blocks with any balanced content, and of other tokens. -/
inductive WritesBody : List String → List Token → Prop
  | nil : WritesBody [] []
  | traits {word stop : Token} {names more : List String} {ts us : List Token}
      (hw : word.isKeyword .useWord = true) (hn : WritesNames names ts)
      (hs : stop.isSemicolon = true) (h : WritesBody more us) :
      WritesBody (names ++ more) (word :: (ts ++ stop :: us))
  | adapted {word o c : Token} {names more : List String} {ts inner us : List Token}
      (hw : word.isKeyword .useWord = true) (hn : WritesNames names ts)
      (ho : o.opensBlock = true) (hin : Balanced inner) (hc : c.closesBlock = true)
      (h : WritesBody more us) :
      WritesBody (names ++ more) (word :: (ts ++ o :: (inner ++ c :: us)))
  | block {o c : Token} {traits : List String} {inner us : List Token}
      (ho : o.opensBlock = true) (hin : Balanced inner) (hc : c.closesBlock = true)
      (h : WritesBody traits us) : WritesBody traits (o :: (inner ++ c :: us))
  | other {t : Token} {traits : List String} {us : List Token} (ho : t.opensBlock = false)
      (hc : t.closesBlock = false) (hu : t.isKeyword .useWord = false)
      (h : WritesBody traits us) : WritesBody traits (t :: us)

/-- The token starts no declaration where `rest` follows it: `namespace` stands only before
a separator, and no short name follows `class` or `interface`, modifiers apart. -/
structure IsInert (t : Token) (rest : List Token) : Prop where
  /-- The keyword `namespace` starts a relative name. -/
  relative : t.isKeyword .namespaceWord = true → rest.head?.any (·.kind == .separator) = true
  /-- The keywords of declarations stand before no short name. -/
  nameless : (DeclarationKind.ofToken? t).isSome = true →
    (rest.dropWhile isModifier).head?.any isShortName = false

/-- `WritesFile space outlines ts` — in the namespace `space`, the tokens `ts` are the rest
of a well-formed file that declares these outlines.  The body of an interface is what
follows its opening brace, and is made of tokens that declare nothing. -/
inductive WritesFile : String → List Outline → List Token → Prop
  | done (space : String) : WritesFile space [] []
  | inert {space : String} {outlines : List Outline} {t : Token} {rest : List Token}
      (ht : IsInert t rest) (h : WritesFile space outlines rest) :
      WritesFile space outlines (t :: rest)
  | namespaceOf {space name last : String} {outlines : List Outline} {word stop : Token}
      {ts rest : List Token} (hw : word.isKeyword .namespaceWord = true)
      (hn : WritesSegments name last ts) (hs : stop.isSemicolon = true ∨ stop.opensBlock = true)
      (h : WritesFile name outlines rest) : WritesFile space outlines (word :: (ts ++ stop :: rest))
  | globalNamespace {space : String} {outlines : List Outline} {word o : Token}
      {rest : List Token} (hw : word.isKeyword .namespaceWord = true)
      (ho : o.opensBlock = true) (h : WritesFile "" outlines rest) :
      WritesFile space outlines (word :: o :: rest)
  | classHeader {space : String} {parent : Option String} {interfaces : List String}
      {outlines : List Outline} {word name stop : Token} {ps is rest : List Token}
      (hw : word.isKeyword .classWord = true) (hn : isShortName name = true)
      (hp : WritesClause .extendsWord parent.toList ps)
      (hi : WritesClause .implementsWord interfaces is) (hs : stop.isSemicolon = true)
      (h : WritesFile space outlines rest) :
      WritesFile space (⟨.classKind, name.text, space, parent, interfaces, []⟩ :: outlines)
        (word :: name :: (ps ++ (is ++ stop :: rest)))
  | classBody {space : String} {parent : Option String} {interfaces traits : List String}
      {outlines : List Outline} {word name o c : Token} {ps is body rest : List Token}
      (hw : word.isKeyword .classWord = true) (hn : isShortName name = true)
      (hp : WritesClause .extendsWord parent.toList ps)
      (hi : WritesClause .implementsWord interfaces is) (ho : o.opensBlock = true)
      (hb : WritesBody traits body) (hc : c.closesBlock = true)
      (h : WritesFile space outlines rest) :
      WritesFile space (⟨.classKind, name.text, space, parent, interfaces, traits⟩ :: outlines)
        (word :: name :: (ps ++ (is ++ o :: (body ++ c :: rest))))
  | interfaceHeader {space : String} {parents : List String} {outlines : List Outline}
      {word name o : Token} {ps rest : List Token}
      (hw : word.isKeyword .interfaceWord = true) (hn : isShortName name = true)
      (hp : WritesClause .extendsWord parents ps) (ho : o.opensBlock = true)
      (h : WritesFile space outlines rest) :
      WritesFile space (⟨.interfaceKind, name.text, space, parents.head?, [], []⟩ :: outlines)
        (word :: name :: (ps ++ o :: rest))

/-- The record `d` is that of an outline in the file `path`: every name of the outline is
resolved by the imports and the namespace, and none is lost. -/
structure IsRecordedAs (imports : ImportTable) (path : String) (o : Outline) (d : Declaration) :
    Prop where
  /-- The full name is the short name inside the namespace. -/
  name : d.name = Name.qualify o.shortName o.space
  /-- The path is that of the file. -/
  path : d.path = path
  /-- The namespace is the one the declaration stands in. -/
  space : d.space = o.space
  /-- The short name is as written. -/
  shortName : d.shortName = o.shortName
  /-- The kind is as written. -/
  kind : d.kind = o.kind.word
  /-- The parent is resolved. -/
  parent : d.parent.map some = o.parent.map (Name.resolve imports o.space)
  /-- The interfaces are resolved, in order. -/
  interfaces : d.interfaces.map some = o.interfaces.map (Name.resolve imports o.space)
  /-- The traits are resolved, in order. -/
  traits : d.traits.map some = o.traits.map (Name.resolve imports o.space)

/-! ### Lists of names -/

/-- A name with substance refers to something. -/
theorem reference?_of_hasSubstance {name : String} (h : Name.hasSubstance name = true) :
    reference? (some name) = some name := by
  rw [reference?, Option.filter, if_pos h]

theorem readNames_name {ends : Token → Bool} {name : String} {ts : List Token}
    (h : WritesName name ts) (hq : ∀ t ∈ ts, ends t = false) {t : Token}
    (ht : t.isInName = false) (rest : List Token) :
    readNames ends (ts ++ t :: rest)
      = (name :: (readNames ends (t :: rest)).1, (readNames ends (t :: rest)).2) := by
  cases ts with
  | nil => exact absurd rfl h.ne_nil
  | cons u us =>
    have hpart := h.isNamePart u List.mem_cons_self
    have hb : (u.isComma || u.isTrivia) = false := by
      rw [isComma, isSymbol_of_isNamePart hpart, isTrivia_of_isNamePart hpart]
      rfl
    have hc := collectName_append h ht rest
    rw [List.cons_append] at hc ⊢
    rw [readNames_of_some (hq u List.mem_cons_self) hb hc,
      reference?_of_hasSubstance h.hasSubstance]
    rfl

/-- A list of names is read as it is written, up to the token that ends it. -/
theorem readNames_append {ends : Token → Bool} {names : List String} {ts : List Token}
    (h : WritesNames names ts) (hq : ∀ t ∈ ts, ends t = false) {stop : Token}
    (hstop : ends stop = true) (hin : stop.isInName = false) (rest : List Token) :
    readNames ends (ts ++ stop :: rest) = (names, stop :: rest) := by
  induction h with
  | one h => rw [readNames_name h hq hin, readNames_of_ends hstop]
  | @more name names comma ts us h hcomma _ ih =>
    have hqts : ∀ t ∈ ts, ends t = false := fun t ht => hq t (List.mem_append_left _ ht)
    have hqus : ∀ t ∈ us, ends t = false := fun t ht =>
      hq t (List.mem_append_right _ (List.mem_cons_of_mem _ ht))
    have hqc : ends comma = false := hq comma (List.mem_append_right _ List.mem_cons_self)
    rw [List.append_assoc, List.cons_append, readNames_name h hqts (isInName_of_isSymbol hcomma),
      readNames_of_between hqc (by rw [hcomma, Bool.true_or]), ih hqus]

/-! ### Headers -/

/-- Tokens that mean nothing to a header are passed over. -/
theorem readHeader_append (parent : Option String) (interfaces : List String) {ts : List Token}
    (h : ∀ t ∈ ts, t.opensBlock = false ∧ t.isSemicolon = false ∧
      t.isKeyword .extendsWord = false ∧ t.isKeyword .implementsWord = false)
    (rest : List Token) :
    readHeader parent interfaces (ts ++ rest) = readHeader parent interfaces rest := by
  induction ts with
  | nil => rfl
  | cons t ts ih =>
    obtain ⟨ho, hs, he, hi⟩ := h t List.mem_cons_self
    rw [List.cons_append, readHeader, ho, hs, he, hi]
    exact ih fun u hu => h u (List.mem_cons_of_mem _ hu)

/-- Of the names of an `extends` clause the first is the parent. -/
theorem readHeader_extends {parents : List String} {ps : List Token}
    (h : WritesClause .extendsWord parents ps) (hm : MarksInterpolate ps)
    (interfaces : List String) {t : Token} (ht : t.isInName = false) (rest : List Token) :
    readHeader none interfaces (ps ++ t :: rest)
      = readHeader parents.head? interfaces (t :: rest) := by
  cases h with
  | absent => rfl
  | @present word names ts hw h =>
    have ho := hm.opensBlock_of_isKeyword List.mem_cons_self hw
    have hs : word.isSemicolon = false := isSymbol_of_isKeyword hw _
    rw [List.cons_append, readHeader, ho, hs, hw]
    show readHeader (none.or (reference? (collectName (ts ++ t :: rest)).1)) interfaces
      (collectName (ts ++ t :: rest)).2 = _
    cases h with
    | one h =>
      rw [collectName_append h ht, reference?_of_hasSubstance h.hasSubstance]
      rfl
    | @more name names comma us vs h hc hv =>
      -- the first name is the parent, and the others mean nothing to the header
      have hmv : MarksInterpolate vs := hm.of_subset fun u hu =>
        List.mem_cons_of_mem _ (List.mem_append_right _ (List.mem_cons_of_mem _ hu))
      rw [List.append_assoc, List.cons_append, collectName_append h (isInName_of_isSymbol hc),
        reference?_of_hasSubstance h.hasSubstance]
      show readHeader (some name) interfaces ([comma] ++ (vs ++ t :: rest)) = _
      rw [readHeader_append, readHeader_append]
      · rfl
      · intro u hu
        obtain ⟨huo, hus⟩ := hv.opensBlock hmv.opensOutsideNames u hu
        exact ⟨huo, hus, hv.isKeyword _ u hu, hv.isKeyword _ u hu⟩
      · intro u hu
        rw [List.mem_singleton] at hu
        subst hu
        exact ⟨opensBlock_of_isComma hc, isSemicolon_of_isComma hc, isKeyword_of_isSymbol hc _,
          isKeyword_of_isSymbol hc _⟩

/-- The names of an `implements` clause are the interfaces. -/
theorem readHeader_implements {interfaces : List String} {is : List Token}
    (h : WritesClause .implementsWord interfaces is) (hm : MarksInterpolate is)
    (parent : Option String) {t : Token} (ht : t.isInName = false)
    (hends : endsInterfaces t = true) (rest : List Token) :
    readHeader parent [] (is ++ t :: rest) = readHeader parent interfaces (t :: rest) := by
  cases h with
  | absent => rfl
  | @present word names ts hw h =>
    have ho := hm.opensBlock_of_isKeyword List.mem_cons_self hw
    have hs : word.isSemicolon = false := isSymbol_of_isKeyword hw _
    have he : word.isKeyword .extendsWord = false := isKeyword_of_ne hw (by decide)
    have hq : ∀ u ∈ ts, endsInterfaces u = false := by
      intro u hu
      obtain ⟨huo, hus⟩ := h.opensBlock
        (hm.of_subset (List.subset_cons_self _ _)).opensOutsideNames u hu
      rw [endsInterfaces, huo, hus]
      rfl
    rw [List.cons_append, readHeader, ho, hs, he, hw]
    show readHeader parent ([] ++ (readNames endsInterfaces (ts ++ t :: rest)).1)
      (readNames endsInterfaces (ts ++ t :: rest)).2 = _
    rw [readNames_append h hq hends ht]
    rfl

/-- A clause starts with its keyword, so that no name runs into it. -/
theorem WritesClause.exists_head {k : Keyword} {names : List String} {ts : List Token}
    (h : WritesClause k names ts) {stop : Token} (hstop : stop.isInName = false)
    (rest : List Token) :
    ∃ t us, ts ++ stop :: rest = t :: us ∧ t.isInName = false := by
  cases h with
  | absent => exact ⟨stop, rest, rfl, hstop⟩
  | present hw _ => exact ⟨_, _, rfl, isInName_of_isKeyword hw⟩

/-- A header is read up to the token that ends it. -/
theorem readHeader_clauses {parents interfaces : List String} {ps is : List Token}
    (hp : WritesClause .extendsWord parents ps) (hi : WritesClause .implementsWord interfaces is)
    (hmp : MarksInterpolate ps) (hmi : MarksInterpolate is) {stop : Token}
    (hstop : stop.isInName = false) (hends : endsInterfaces stop = true) (rest : List Token) :
    readHeader none [] (ps ++ (is ++ stop :: rest))
      = readHeader parents.head? interfaces (stop :: rest) := by
  -- the names of the first clause end where the second clause, or what follows, starts
  obtain ⟨t, us, hus, ht⟩ := hi.exists_head hstop rest
  rw [hus, readHeader_extends hp hmp [] ht, ← hus, readHeader_implements hi hmi _ hstop hends]

theorem readHeader_semicolon {t : Token} (hs : t.isSemicolon = true) (parent : Option String)
    (interfaces : List String) (rest : List Token) :
    readHeader parent interfaces (t :: rest) = ⟨parent, interfaces, false, rest⟩ := by
  rw [readHeader, opensBlock_of_isSemicolon hs, hs]
  rfl

theorem readHeader_opensBlock {t : Token} (ho : t.opensBlock = true) (parent : Option String)
    (interfaces : List String) (rest : List Token) :
    readHeader parent interfaces (t :: rest) = ⟨parent, interfaces, true, rest⟩ := by
  rw [readHeader, if_pos ho]

/-! ### Bodies -/

/-- What the names of a trait statement end at. -/
theorem endsTraits_eq {t : Token} (h : t.isInName = false) :
    endsTraits t = (t.opensBlock || t.isSemicolon) := by
  rw [endsTraits, isTrivia_of_isInName h]
  rfl

theorem readTraits_append {names : List String} {ts : List Token} (h : WritesNames names ts)
    (hm : MarksInterpolate ts) {stop : Token} (hin : stop.isInName = false)
    (hstop : (stop.opensBlock || stop.isSemicolon) = true) (rest : List Token) :
    readNames endsTraits (ts ++ stop :: rest) = (names, stop :: rest) := by
  refine readNames_append h (fun t ht => ?_) ((endsTraits_eq hin).trans hstop) hin rest
  obtain ⟨ho, hs⟩ := h.opensBlock hm.opensOutsideNames t ht
  rw [endsTraits, ho, hs, Bool.or_false, Bool.and_false]

/-- A statement that uses traits is read up to its semicolon. -/
theorem readTraitUse_semicolon {names : List String} {ts : List Token} (h : WritesNames names ts)
    (hm : MarksInterpolate ts) {stop : Token} (hs : stop.isSemicolon = true) (rest : List Token) :
    readTraitUse (ts ++ stop :: rest) = (names, rest) := by
  have hnames := readTraits_append h hm (isInName_of_isSymbol hs)
    (by rw [hs, Bool.or_true]) rest
  simp only [readTraitUse, hnames, hs, if_true]

/-- A statement that adapts traits is read up to the end of its block. -/
theorem readTraitUse_block {names : List String} {ts inner : List Token}
    (h : WritesNames names ts) (hm : MarksInterpolate ts) {o c : Token} (hin : o.isInName = false)
    (ho : o.opensBlock = true) (hb : Balanced inner) (hc : c.closesBlock = true)
    (rest : List Token) :
    readTraitUse (ts ++ o :: (inner ++ c :: rest)) = (names, rest) := by
  have hnames := readTraits_append h hm hin (by rw [ho, Bool.true_or]) (inner ++ c :: rest)
  have hs : o.isSemicolon = false := by
    rw [← Bool.not_eq_true]
    intro hs
    rw [opensBlock_of_isSemicolon hs] at ho
    exact Bool.false_ne_true ho
  simp only [readTraitUse, hnames, hs, ho, if_true, Bool.false_eq_true, if_false,
    skipBalanced_block ho hb hc]

/-- Inside a block of a body nothing is read, whatever it holds. -/
theorem readBody_balanced {ts : List Token} (h : Balanced ts) (depth : Nat) (rest : List Token) :
    readBody (depth + 2) (ts ++ rest) = readBody (depth + 2) rest := by
  induction h generalizing depth rest with
  | nil => rfl
  | plain ho hc _ ih =>
    rw [List.cons_append, readBody, ho, hc]
    -- two braces deep, the word `use` is not looked at
    simp only [Bool.false_eq_true, if_false]
    rw [if_neg (by omega)]
    exact ih depth rest
  | @block o c inner ts ho _ hc _ ihin ih =>
    have hco := opensBlock_of_closesBlock hc
    rw [List.cons_append, List.append_assoc, readBody, if_pos ho, ihin, List.cons_append, readBody,
      hco, if_neg Bool.false_ne_true, if_pos hc, if_neg (by omega)]
    exact ih depth rest

/-- A body is read up to the brace that closes it, and gives the traits that it uses. -/
theorem readBody_append {traits : List String} {body : List Token} (h : WritesBody traits body)
    (hm : MarksInterpolate body) {c : Token} (hc : c.closesBlock = true) (rest : List Token) :
    readBody 1 (body ++ c :: rest) = (traits, rest) := by
  induction h with
  | nil =>
    rw [List.nil_append, readBody, opensBlock_of_closesBlock hc, hc]
    rfl
  | @traits word stop names more ts us hw hn hs _ ih =>
    have hmts : MarksInterpolate ts := hm.of_subset fun u hu =>
      List.mem_cons_of_mem _ (List.mem_append_left _ hu)
    have hmus : MarksInterpolate us := hm.of_subset fun u hu =>
      List.mem_cons_of_mem _ (List.mem_append_right _ (List.mem_cons_of_mem _ hu))
    have ho := hm.opensBlock_of_isKeyword List.mem_cons_self hw
    have hwc : word.closesBlock = false := isSymbol_of_isKeyword hw _
    rw [List.cons_append, readBody, ho, hwc, if_neg Bool.false_ne_true, if_neg Bool.false_ne_true,
      if_pos ⟨rfl, hw⟩, List.append_assoc, List.cons_append, readTraitUse_semicolon hn hmts hs]
    show (names ++ (readBody 1 (us ++ c :: rest)).1, (readBody 1 (us ++ c :: rest)).2) = _
    rw [ih hmus]
  | @adapted word o c' names more ts inner us hw hn ho hin hc' _ ih =>
    have hmts : MarksInterpolate ts := hm.of_subset fun u hu =>
      List.mem_cons_of_mem _ (List.mem_append_left _ hu)
    have hmo := hm.isInName_of_opensBlock
      (List.mem_cons_of_mem _ (List.mem_append_right _ List.mem_cons_self)) ho
    have hmus : MarksInterpolate us := hm.of_subset fun u hu =>
      List.mem_cons_of_mem _ (List.mem_append_right _ (List.mem_cons_of_mem _
        (List.mem_append_right _ (List.mem_cons_of_mem _ hu))))
    have hwo := hm.opensBlock_of_isKeyword List.mem_cons_self hw
    have hwc : word.closesBlock = false := isSymbol_of_isKeyword hw _
    -- the block that adapts the traits is skipped with all it holds
    have hsplit : (ts ++ o :: (inner ++ c' :: us)) ++ c :: rest
        = ts ++ o :: (inner ++ c' :: (us ++ c :: rest)) := by simp
    rw [List.cons_append, readBody, hwo, hwc, if_neg Bool.false_ne_true, if_neg Bool.false_ne_true,
      if_pos ⟨rfl, hw⟩, hsplit, readTraitUse_block hn hmts hmo ho hin hc']
    show (names ++ (readBody 1 (us ++ c :: rest)).1, (readBody 1 (us ++ c :: rest)).2) = _
    rw [ih hmus]
  | @block o c' traits inner us ho hin hc' _ ih =>
    have hmus : MarksInterpolate us := hm.of_subset fun u hu =>
      List.mem_cons_of_mem _ (List.mem_append_right _ (List.mem_cons_of_mem _ hu))
    have hsplit : (o :: (inner ++ c' :: us)) ++ c :: rest
        = o :: (inner ++ c' :: (us ++ c :: rest)) := by simp
    rw [hsplit, readBody, if_pos ho, readBody_balanced hin, readBody, opensBlock_of_closesBlock hc',
      if_neg Bool.false_ne_true, if_pos hc', if_neg (by omega)]
    exact ih hmus
  | other ho hc' hu _ ih =>
    rw [List.cons_append, readBody, ho, hc', hu, if_neg Bool.false_ne_true,
      if_neg Bool.false_ne_true, if_neg (fun h => Bool.false_ne_true h.2)]
    exact ih (hm.of_subset (List.subset_cons_self _ _))

/-! ### Files -/

/-- A modifier is no keyword but its own. -/
theorem isKeyword_of_isModifier {t : Token} (h : isModifier t = true) {k : Keyword}
    (hf : k ≠ .finalWord) (ha : k ≠ .abstractWord) : t.isKeyword k = false := by
  rw [isModifier, Bool.or_eq_true, Bool.or_eq_true] at h
  rcases h with (h | h) | h
  · exact isKeyword_of_isTrivia h k
  · exact isKeyword_of_ne h hf.symm
  · exact isKeyword_of_ne h ha.symm

/-- A modifier declares nothing. -/
theorem ofToken?_of_isModifier {t : Token} (h : isModifier t = true) :
    DeclarationKind.ofToken? t = none := by
  rw [DeclarationKind.ofToken?, isKeyword_of_isModifier h (by decide) (by decide),
    isKeyword_of_isModifier h (by decide) (by decide)]
  rfl

/-- A modifier is no keyword that a file is read by. -/
theorem readFrom_of_isModifier {t : Token} (h : isModifier t = true) (space : String)
    (rest : List Token) : readFrom space (t :: rest) = readFrom space rest := by
  rw [readFrom, isKeyword_of_isModifier h (by decide) (by decide)]
  simp only [Bool.false_eq_true, if_false, ofToken?_of_isModifier h]

theorem readFrom_dropWhile {p : Token → Bool} (hp : ∀ t, p t = true → isModifier t = true)
    (space : String) (ts : List Token) : readFrom space (ts.dropWhile p) = readFrom space ts := by
  induction ts with
  | nil => rfl
  | cons t ts ih =>
    by_cases ht : p t = true
    · rw [List.dropWhile_cons_of_pos ht, readFrom_of_isModifier (hp t ht), ih]
    · rw [List.dropWhile_cons_of_neg ht]

theorem readShortName_of_nameless {ts : List Token}
    (h : (ts.dropWhile isModifier).head?.any isShortName = false) :
    readShortName ts = (none, ts.dropWhile isModifier) := by
  rw [readShortName]
  cases hd : ts.dropWhile isModifier with
  | nil => rfl
  | cons t rest =>
    rw [hd] at h
    have ht : isShortName t = false := h
    simp only [ht, Bool.false_eq_true, if_false]

theorem isModifier_of_isShortName {t : Token} (h : isShortName t = true) :
    isModifier t = false := by
  rw [isShortName, Bool.and_eq_true, beq_iff_eq] at h
  simp [isModifier, isTrivia, isKeyword, h.1]

theorem readShortName_cons {t : Token} (h : isShortName t = true) (rest : List Token) :
    readShortName (t :: rest) = (some t.text, rest) := by
  rw [readShortName, List.dropWhile_cons_of_neg (by simp [isModifier_of_isShortName h])]
  simp only [h, if_true]

/-- A declaration is read where its keyword stands before a short name. -/
theorem readFrom_declaration {kind : DeclarationKind} {word name : Token}
    (hw : DeclarationKind.ofToken? word = some kind) (hs : word.isKeyword .namespaceWord = false)
    (hn : isShortName name = true) (space : String) (ts : List Token) :
    readFrom space (word :: name :: ts)
      = (readOutline kind space name.text ts).1
        :: readFrom space (readOutline kind space name.text ts).2 := by
  rw [readFrom, hs]
  simp only [Bool.false_eq_true, if_false, hw, readShortName_cons hn]

theorem ofToken?_classWord {t : Token} (h : t.isKeyword .classWord = true) :
    DeclarationKind.ofToken? t = some .classKind := by
  rw [DeclarationKind.ofToken?, if_pos h]

theorem ofToken?_interfaceWord {t : Token} (h : t.isKeyword .interfaceWord = true) :
    DeclarationKind.ofToken? t = some .interfaceKind := by
  rw [DeclarationKind.ofToken?, isKeyword_of_ne h (by decide), if_neg Bool.false_ne_true, if_pos h]

/-- An inert token is passed over. -/
theorem readFrom_inert {t : Token} {rest : List Token} (h : IsInert t rest) (space : String) :
    readFrom space (t :: rest) = readFrom space rest := by
  rw [readFrom]
  split
  · next hw =>
    -- the keyword is part of a relative name, and nothing is read
    have hrel := h.relative hw
    have hskip : skipTrivia rest = rest := by
      cases rest with
      | nil => rfl
      | cons s rest =>
        have hs : s.kind = .separator := by simpa using hrel
        exact skipTrivia_cons (isTrivia_of_isNamePart (isNamePart_of_separator hs)) rest
    have hread : NamespaceHead.read rest = ⟨none, rest⟩ := by
      rw [NamespaceHead.read, NamespaceHead.isRelative, hskip, if_pos hrel]
    simp only [hread, Option.getD_none]
  · cases hk : DeclarationKind.ofToken? t with
    | none => rfl
    | some kind =>
      have hname := readShortName_of_nameless (h.nameless (by rw [hk]; rfl))
      simp only [hname]
      exact readFrom_dropWhile (fun _ => id) space rest

/-- The namespace that a head declares is that of what follows it. -/
theorem readFrom_namespace {word : Token} (hw : word.isKeyword .namespaceWord = true)
    {ts rest : List Token} {name : String} (h : NamespaceHead.read ts = ⟨some name, rest⟩)
    (space : String) : readFrom space (word :: ts) = readFrom name rest := by
  rw [readFrom, if_pos hw]
  simp only [h, Option.getD_some]

/-- What opens a block ends a list of interfaces, and so does a semicolon. -/
theorem endsInterfaces_of_opensBlock {t : Token} (h : t.opensBlock = true) :
    endsInterfaces t = true := by
  rw [endsInterfaces, h, Bool.true_or]

theorem endsInterfaces_of_isSemicolon {t : Token} (h : t.isSemicolon = true) :
    endsInterfaces t = true := by
  rw [endsInterfaces, h, Bool.or_true]

/-- **Outlines are read as they are written.**  The induction follows the file; each of its
parts is read up to the token that the next one starts with. -/
theorem readFrom_file {space : String} {outlines : List Outline} {ts : List Token}
    (h : WritesFile space outlines ts) (hm : MarksInterpolate ts) :
    readFrom space ts = outlines := by
  induction h with
  | done space => rw [readFrom]
  | inert ht _ ih =>
    rw [readFrom_inert ht]
    exact ih (hm.of_subset (List.subset_cons_self _ _))
  | @namespaceOf space name last outlines word stop ts rest hw hn hs _ ih =>
    have hstop : stop ∈ word :: (ts ++ stop :: rest) :=
      List.mem_cons_of_mem _ (List.mem_append_right _ List.mem_cons_self)
    have hin : stop.isInName = false := by
      rcases hs with hs | hs
      · exact isInName_of_isSymbol hs
      · exact hm.isInName_of_opensBlock hstop hs
    rw [readFrom_namespace hw (NamespaceHead.read_segments hn hin hs rest)]
    exact ih (hm.of_subset fun u hu =>
      List.mem_cons_of_mem _ (List.mem_append_right _ (List.mem_cons_of_mem _ hu)))
  | @globalNamespace space outlines word o rest hw ho _ ih =>
    have hin := hm.isInName_of_opensBlock (List.mem_cons_of_mem _ List.mem_cons_self) ho
    rw [readFrom_namespace hw (NamespaceHead.read_global hin ho rest)]
    exact ih (hm.of_subset fun u hu => List.mem_cons_of_mem _ (List.mem_cons_of_mem _ hu))
  | @classHeader space parent interfaces outlines word name stop ps is rest hw hn hp hi hs _ ih =>
    have hps : ps ⊆ word :: name :: (ps ++ (is ++ stop :: rest)) := fun u hu => by simp [hu]
    have his : is ⊆ word :: name :: (ps ++ (is ++ stop :: rest)) := fun u hu => by simp [hu]
    have hrest : rest ⊆ word :: name :: (ps ++ (is ++ stop :: rest)) := fun u hu => by simp [hu]
    have hheader := readHeader_clauses hp hi (hm.of_subset hps) (hm.of_subset his)
      (isInName_of_isSymbol hs) (endsInterfaces_of_isSemicolon hs) rest
    rw [readHeader_semicolon hs, Option.head?_toList] at hheader
    rw [readFrom_declaration (ofToken?_classWord hw) (isKeyword_of_ne hw (by decide)) hn]
    simp only [readOutline, hheader, readTraits, Bool.false_eq_true, and_false, if_false]
    rw [ih (hm.of_subset hrest)]
  | @classBody space parent interfaces traits outlines word name o c ps is body rest hw hn hp hi
      ho hb hc _ ih =>
    have hps : ps ⊆ word :: name :: (ps ++ (is ++ o :: (body ++ c :: rest))) :=
      fun u hu => by simp [hu]
    have his : is ⊆ word :: name :: (ps ++ (is ++ o :: (body ++ c :: rest))) :=
      fun u hu => by simp [hu]
    have hbody : body ⊆ word :: name :: (ps ++ (is ++ o :: (body ++ c :: rest))) :=
      fun u hu => by simp [hu]
    have hrest : rest ⊆ word :: name :: (ps ++ (is ++ o :: (body ++ c :: rest))) :=
      fun u hu => by simp [hu]
    have hin : o.isInName = false := hm.isInName_of_opensBlock (by simp) ho
    have hheader := readHeader_clauses hp hi (hm.of_subset hps) (hm.of_subset his) hin
      (endsInterfaces_of_opensBlock ho) (body ++ c :: rest)
    rw [readHeader_opensBlock ho, Option.head?_toList] at hheader
    rw [readFrom_declaration (ofToken?_classWord hw) (isKeyword_of_ne hw (by decide)) hn]
    simp only [readOutline, hheader, readTraits, and_self, if_true,
      readBody_append hb (hm.of_subset hbody) hc]
    rw [ih (hm.of_subset hrest)]
  | @interfaceHeader space parents outlines word name o ps rest hw hn hp ho _ ih =>
    -- an interface has no body to be read: what follows the brace is inert
    have hps : ps ⊆ word :: name :: (ps ++ o :: rest) := fun u hu => by simp [hu]
    have hrest : rest ⊆ word :: name :: (ps ++ o :: rest) := fun u hu => by simp [hu]
    have hin : o.isInName = false := hm.isInName_of_opensBlock (by simp) ho
    have hheader := readHeader_extends hp (hm.of_subset hps) [] hin rest
    rw [readHeader_opensBlock ho] at hheader
    rw [readFrom_declaration (ofToken?_interfaceWord hw) (isKeyword_of_ne hw (by decide)) hn]
    simp only [readOutline, hheader, readTraits, reduceCtorEq, false_and, if_false]
    rw [ih (hm.of_subset hrest)]

/-! ### Records -/

/-- The names of an outline have substance. -/
def HasSubstance (o : Outline) : Prop :=
  (∀ name ∈ o.parent, Name.hasSubstance name = true) ∧
  (∀ name ∈ o.interfaces, Name.hasSubstance name = true) ∧
  ∀ name ∈ o.traits, Name.hasSubstance name = true

theorem WritesClause.hasSubstance {k : Keyword} {names : List String} {ts : List Token}
    (h : WritesClause k names ts) : ∀ name ∈ names, Name.hasSubstance name = true := by
  cases h with
  | absent =>
    intro name h
    exact absurd h List.not_mem_nil
  | present _ h => exact h.hasSubstance

theorem WritesBody.hasSubstance {traits : List String} {ts : List Token}
    (h : WritesBody traits ts) : ∀ name ∈ traits, Name.hasSubstance name = true := by
  induction h with
  | nil =>
    intro name h
    exact absurd h List.not_mem_nil
  | traits _ hn _ _ ih | adapted _ hn _ _ _ _ ih =>
    intro name hname
    rcases List.mem_append.mp hname with h | h
    · exact hn.hasSubstance name h
    · exact ih name h
  | block _ _ _ _ ih => exact ih
  | other _ _ _ _ ih => exact ih

/-- Every name that a well-formed file refers to has substance. -/
theorem WritesFile.hasSubstance {space : String} {outlines : List Outline} {ts : List Token}
    (h : WritesFile space outlines ts) : ∀ o ∈ outlines, o.HasSubstance := by
  have hnone : ∀ name ∈ ([] : List String), Name.hasSubstance name = true :=
    fun name h => absurd h List.not_mem_nil
  induction h with
  | done =>
    intro o h
    exact absurd h List.not_mem_nil
  | inert _ _ ih => exact ih
  | namespaceOf _ _ _ _ ih => exact ih
  | globalNamespace _ _ _ ih => exact ih
  | classHeader _ _ hp hi _ _ ih =>
    intro o ho
    rcases List.mem_cons.mp ho with rfl | ho
    · exact ⟨fun name h => hp.hasSubstance name (Option.mem_toList.mpr h), hi.hasSubstance, hnone⟩
    · exact ih o ho
  | classBody _ _ hp hi _ hb _ _ ih =>
    intro o ho
    rcases List.mem_cons.mp ho with rfl | ho
    · exact ⟨fun name h => hp.hasSubstance name (Option.mem_toList.mpr h), hi.hasSubstance,
        hb.hasSubstance⟩
    · exact ih o ho
  | interfaceHeader _ _ hp _ _ ih =>
    intro o ho
    rcases List.mem_cons.mp ho with rfl | ho
    · exact ⟨fun name h => hp.hasSubstance name (List.mem_of_mem_head? h), hnone, hnone⟩
    · exact ih o ho

/-- Where all names are resolved, none is left out. -/
theorem map_some_filterMap {f : String → Option String} {names : List String}
    (h : ∀ name ∈ names, (f name).isSome = true) : (names.filterMap f).map some = names.map f := by
  induction names with
  | nil => rfl
  | cons name names ih =>
    obtain ⟨full, hfull⟩ := Option.isSome_iff_exists.mp (h name List.mem_cons_self)
    rw [List.filterMap_cons_some hfull, List.map_cons, List.map_cons, hfull,
      ih fun n hn => h n (List.mem_cons_of_mem _ hn)]

/-- The record of an outline whose names have substance has all its names. -/
theorem HasSubstance.isRecordedAs {o : Outline} (h : o.HasSubstance) (imports : ImportTable)
    (path : String) : o.IsRecordedAs imports path (o.resolve imports path) where
  name := rfl
  path := rfl
  space := rfl
  shortName := rfl
  kind := rfl
  parent := by
    show (o.parent.bind (Name.resolve imports o.space)).map some = _
    cases hp : o.parent with
    | none => rfl
    | some name =>
      obtain ⟨full, hfull⟩ := Option.isSome_iff_exists.mp
        (Name.resolve_isSome imports o.space (h.1 name hp))
      rw [Option.bind_some, Option.map_some, hfull, Option.map_some]
  interfaces := map_some_filterMap fun name hname =>
    Name.resolve_isSome imports o.space (h.2.1 name hname)
  traits := map_some_filterMap fun name hname =>
    Name.resolve_isSome imports o.space (h.2.2 name hname)

end Outline

open Outline

namespace Declaration

/-- **A well-formed file gives one record for each declaration.**  Whatever trivia stands
between its tokens and whatever names are imported, the records are those of the outlines
that the file writes, in the order of the file. -/
theorem scanWith_wellFormed {ts : List Token} {outlines : List Outline} (hm : MarksInterpolate ts)
    (h : WritesFile "" outlines (significant ts)) (imports : ImportTable) (path : String) :
    List.Forall₂ (IsRecordedAs imports path) outlines (scanWith imports path ts) := by
  have hread : readAll ts = outlines := by
    rw [← readAll_significant hm.opensOutsideNames]
    exact readFrom_file h (hm.of_subset (significant_subset ts))
  rw [scanWith, hread, List.forall₂_map_right_iff, List.forall₂_same]
  intro o ho
  exact (h.hasSubstance o ho).isRecordedAs imports path

/-- A class with a parent, an interface, a trait and a method, with blanks in between. -/
def wellFormedSample : List Token :=
  [⟨.keyword .namespaceWord, "namespace", 1⟩, ⟨.whitespace, " ", 1⟩, ⟨.name, "App", 1⟩,
    ⟨.symbol, ";", 1⟩, ⟨.keyword .classWord, "class", 2⟩, ⟨.whitespace, " ", 2⟩,
    ⟨.name, "User", 2⟩, ⟨.keyword .extendsWord, "extends", 2⟩, ⟨.separator, "\\", 2⟩,
    ⟨.name, "Base", 2⟩, ⟨.keyword .implementsWord, "implements", 2⟩, ⟨.name, "Shown", 2⟩,
    ⟨.symbol, "\x7b", 2⟩, ⟨.keyword .useWord, "use", 3⟩, ⟨.name, "Dated", 3⟩,
    ⟨.symbol, ";", 3⟩, ⟨.other, "name", 4⟩, ⟨.symbol, "\x7b", 4⟩,
    ⟨.keyword .classWord, "class", 5⟩, ⟨.symbol, "\x7d", 6⟩, ⟨.symbol, "\x7d", 7⟩]

/-- What the sample declares. -/
def wellFormedOutline : Outline :=
  ⟨.classKind, "User", "App", some "\\Base", ["Shown"], ["Dated"]⟩

theorem scanWith_wellFormed_sample :
    MarksInterpolate wellFormedSample ∧
      WritesFile "" [wellFormedOutline] (significant wellFormedSample) ∧
      List.Forall₂ (IsRecordedAs [("Shown", "Lib\\Shown")] "User.php") [wellFormedOutline]
        (scanWith [("Shown", "Lib\\Shown")] "User.php" wellFormedSample) := by
  have hsegment : ∀ (text : String) (line : Nat), text ≠ "" →
      text.toList.any Name.isSeparator = false → WritesSegments text text [⟨.name, text, line⟩] :=
    fun text line hne hall => .one (t := ⟨.name, text, line⟩) ⟨rfl, hne, hall⟩
  have hm : MarksInterpolate wellFormedSample := by
    simp [MarksInterpolate, wellFormedSample]
  have hbase : WritesName "\\Base" [⟨.separator, "\\", 2⟩, ⟨.name, "Base", 2⟩] :=
    .rooted (s := ⟨.separator, "\\", 2⟩) rfl (hsegment "Base" 2 (by decide) (by decide))
  have hparent : WritesClause .extendsWord (some "\\Base").toList
      [⟨.keyword .extendsWord, "extends", 2⟩, ⟨.separator, "\\", 2⟩, ⟨.name, "Base", 2⟩] :=
    .present rfl (.one hbase)
  have hinterfaces : WritesClause .implementsWord ["Shown"]
      [⟨.keyword .implementsWord, "implements", 2⟩, ⟨.name, "Shown", 2⟩] :=
    .present rfl (.one (.plain (hsegment "Shown" 2 (by decide) (by decide))))
  have hmethod : Balanced [⟨.keyword .classWord, "class", 5⟩] := .plain rfl rfl .nil
  have hbody : WritesBody (["Dated"] ++ []) (⟨.keyword .useWord, "use", 3⟩ ::
      ([⟨.name, "Dated", 3⟩] ++ ⟨.symbol, ";", 3⟩ :: (⟨.other, "name", 4⟩ ::
        (⟨.symbol, "\x7b", 4⟩ :: ([⟨.keyword .classWord, "class", 5⟩] ++
          ⟨.symbol, "\x7d", 6⟩ :: []))))) :=
    .traits rfl (.one (.plain (hsegment "Dated" 3 (by decide) (by decide)))) rfl
      (.other rfl rfl rfl (.block rfl hmethod rfl .nil))
  have hfile : WritesFile "" [wellFormedOutline] (significant wellFormedSample) :=
    .namespaceOf rfl (hsegment "App" 1 (by decide) (by decide)) (.inl rfl)
      (@WritesFile.classBody _ _ _ _ _ _ ⟨.name, "User", 2⟩ _ ⟨.symbol, "\x7d", 7⟩ _ _ _ _ rfl rfl
        hparent hinterfaces rfl hbody rfl (.done "App"))
  exact ⟨hm, hfile, scanWith_wellFormed hm hfile _ _⟩

end Declaration
end ClassLineage
