import ClassLineage.Proofs.Import.Bindings
import ClassLineage.Proofs.Name
import Mathlib.Data.Option.Basic

/-!
# Names below other names

What a name stands for is decided by how it starts: by its leading separators, or by its first
segment and what a file imports under it.  So a name below another one stands for what is below
that which the other stands for, if imports stand for tight names; and a name that is resolved
stands for itself once it is rooted.

A table made by hand may break this: what it gives for an alias keeps its last separators where
the alias stands alone, and loses them where a name goes on below it.

## Main definitions

* `Name.IsRooted` — a name with a leading separator.

## Main results

* `Name.trimLeading_append`, `Name.firstSegment_below`, `Name.afterFirst?_below` — going below a
  name changes none of the places where it is trimmed or cut.
* `Name.resolve_append_below` — under imports of tight names, a name below another one stands for
  what is below that which the other stands for.
* `Name.resolve_below` — **so it does under the imports of every file,** and a resolved name that
  is rooted stands for itself everywhere.
-/

namespace ClassLineage
namespace Name

open Text

/-! ### Rooted names -/

/-- The name has a leading separator. -/
def IsRooted (name : String) : Prop := ∃ c ∈ name.toList.head?, isSeparator c = true

instance : DecidablePred IsRooted := fun name =>
  decidable_of_iff (name.toList.head?.any isSeparator = true) (Option.any_eq_true _ _)

theorem isRooted_iff {name : String} : IsRooted name ↔ trimLeading name ≠ name := by
  rw [IsRooted, Ne, ← String.toList_inj, trimLeading, Text.toList_trimStart]
  cases name.toList with
  | nil => simp
  | cons c cs =>
    simp only [List.head?_cons, Option.mem_some_iff, exists_eq_left']
    cases hc : isSeparator c with
    | false => simp [hc]
    | true =>
      rw [List.dropWhile_cons_of_pos hc]
      -- what is left after a separator is dropped is shorter than the name
      have hlen := (List.dropWhile_suffix (l := cs) isSeparator).length_le
      refine iff_of_true rfl fun h => ?_
      rw [h, List.length_cons] at hlen
      omega

/-- A rooted name is a full name, whatever is imported. -/
theorem resolve_of_isRooted {name : String} (h : IsRooted name)
    (hsub : hasSubstance name = true) (imports : ImportTable) (space : String) :
    resolve imports space name = some (trimLeading name) := by
  rw [resolve, if_neg (trimLeading_ne_empty hsub), if_pos (isRooted_iff.mp h)]

/-- What a name stands for depends on the import of its first segment alone. -/
theorem resolve_congr {imports imports' : ImportTable} {name : String}
    (h : imports.find? (firstSegment name) = imports'.find? (firstSegment name))
    (space : String) : resolve imports space name = resolve imports' space name := by
  rw [resolve, resolve, h]

/-- A text is full if it is not empty and not rooted. -/
theorem isFull_iff {name : String} : IsFull name ↔ name ≠ "" ∧ ¬ IsRooted name := by
  constructor
  · intro h
    refine ⟨h.ne_empty, ?_⟩
    rintro ⟨c, hc, hsep⟩
    rw [h.first c hc] at hsep
    exact Bool.false_ne_true hsep
  · rintro ⟨hne, hrooted⟩
    refine ⟨hne, fun c hc => ?_⟩
    rw [← Bool.not_eq_true]
    intro hsep
    exact hrooted ⟨c, hc, hsep⟩

/-- A full name that is rooted stands for itself, whatever is imported. -/
theorem resolve_rooted {full : String} (h : IsFull full) (imports : ImportTable)
    (space : String) : resolve imports space (separator ++ full) = some full := by
  have htrim : trimLeading (separator ++ full) = full := by
    have hself := h.trimLeading
    rw [← String.toList_inj, trimLeading, toList_trimStart] at hself ⊢
    rw [String.toList_append, toList_separator, List.singleton_append,
      List.dropWhile_cons_of_pos rfl, hself]
  have hrooted : IsRooted (separator ++ full) :=
    ⟨'\\', by rw [String.toList_append, toList_separator]; rfl, rfl⟩
  have hne := isRooted_iff.mp hrooted
  rw [htrim] at hne
  rw [resolve, htrim, if_neg h.ne_empty, if_pos hne]

/-! ### Trimming and cutting a name that goes on -/

section Below

variable {name : String}

/-- The leading separators of a name with substance end inside of it. -/
theorem trimLeading_append (h : hasSubstance name = true) (rest : String) :
    trimLeading (name ++ rest) = trimLeading name ++ rest := by
  have hne : (name.toList.dropWhile isSeparator).isEmpty = false := by
    have htrim := trimLeading_ne_empty h
    rw [Ne, ← String.toList_eq_nil_iff, trimLeading, toList_trimStart] at htrim
    simpa using htrim
  rw [← String.toList_inj, trimLeading, trimLeading, String.toList_append, toList_trimStart,
    toList_trimStart, String.toList_append, List.dropWhile_append, hne]
  rfl

/-- What follows a name with substance does not root it. -/
theorem trimLeading_append_eq_iff (h : hasSubstance name = true) (rest : String) :
    trimLeading (name ++ rest) = name ++ rest ↔ trimLeading name = name := by
  rw [trimLeading_append h, ← String.toList_inj, ← String.toList_inj, String.toList_append,
    String.toList_append, List.append_left_inj]

/-- The first segment of a name ends before the name goes on below. -/
theorem firstSegment_below (name rest : String) :
    firstSegment (name ++ separator ++ rest) = firstSegment name := by
  rw [← String.toList_inj, firstSegment, firstSegment, String.toList_ofList, String.toList_ofList,
    String.toList_append, String.toList_append, toList_separator, List.append_assoc,
    List.singleton_append, List.takeWhile_append]
  split
  · next hlen =>
    -- the whole name is one segment, which the separator ends
    have hpre := List.takeWhile_prefix (l := name.toList) fun c => !isSeparator c
    rw [List.takeWhile_cons_of_neg (by decide), List.append_nil, hpre.eq_of_length hlen]
  · rfl

/-- What follows the first segment of a name goes on with it. -/
theorem afterFirst?_below (name rest : String) :
    afterFirst? (name ++ separator ++ rest)
      = some (match afterFirst? name with
        | none => rest
        | some more => more ++ separator ++ rest) := by
  have hchars : (name ++ separator ++ rest).toList = name.toList ++ '\\' :: rest.toList := by
    rw [String.toList_append, String.toList_append, toList_separator, List.append_assoc,
      List.singleton_append]
  rw [afterFirst?, afterFirst?, hchars, List.dropWhile_append]
  cases name.toList.dropWhile fun c => !isSeparator c with
  | nil =>
    rw [if_pos List.isEmpty_nil, List.dropWhile_cons_of_neg (by decide)]
    exact congrArg some (String.ofList_toList)
  | cons c more =>
    rw [if_neg (by simp), List.cons_append]
    refine congrArg some (String.toList_inj.mp ?_)
    simp [toList_separator]

theorem qualify_append (name rest space : String) :
    qualify (name ++ rest) space = qualify name space ++ rest := by
  by_cases h : space = ""
  · rw [h, qualify_global, qualify_global]
  · rw [qualify_of_ne _ h, qualify_of_ne _ h, String.append_assoc, String.append_assoc,
      String.append_assoc]

/-! ### Resolving a name that goes on -/

/-- **A name below another one stands for what is below that which the other stands for,** where
imports stand for tight names.  The cases are those of the resolution. -/
theorem resolve_append_below {imports : ImportTable} (himports : ∀ e ∈ imports, IsTight e.2)
    (h : hasSubstance name = true) {space full : String}
    (hfull : resolve imports space name = some full) (rest : String) :
    resolve imports space (name ++ separator ++ rest) = some (full ++ separator ++ rest) := by
  have hne : trimLeading name ≠ "" := trimLeading_ne_empty h
  have hne' : trimLeading (name ++ (separator ++ rest)) ≠ "" := by
    rw [trimLeading_append h]
    intro hempty
    rw [← String.toList_eq_nil_iff, String.toList_append, List.append_eq_nil_iff] at hempty
    exact hne (String.toList_eq_nil_iff.mp hempty.1)
  have hiff := trimLeading_append_eq_iff h (separator ++ rest)
  rw [resolve, if_neg hne] at hfull
  rw [resolve, firstSegment_below, afterFirst?_below, String.append_assoc, if_neg hne']
  by_cases hraw : trimLeading name = name
  · rw [if_neg (not_not.mpr hraw)] at hfull
    rw [if_neg (not_not.mpr (hiff.mpr hraw))]
    cases hfound : imports.find? (firstSegment name) with
    | none =>
      -- nothing is imported, and the name belongs to the namespace
      rw [hfound] at hfull
      have hqualified : qualify name space = full := by
        cases hafter : afterFirst? name <;> simpa [hafter] using hfull
      rw [← hqualified, String.append_assoc, ← qualify_append]
    | some target =>
      have htight : IsTight target := himports _ (Entries.mem_of_find? hfound)
      rw [hfound] at hfull
      cases hafter : afterFirst? name with
      | none =>
        simp only [hafter, trimLeading_eq_self htight.first, Option.some.injEq] at hfull
        subst hfull
        simp only [htight.trimSeparators]
      | some more =>
        simp only [hafter, Option.some.injEq] at hfull
        simp only [← hfull, String.append_assoc]
  · rw [if_pos hraw, Option.some.injEq] at hfull
    rw [if_pos (mt hiff.mp hraw), trimLeading_append h, hfull, String.append_assoc]

/-- An import that ends with a separator breaks the law: the alias alone keeps it, and what goes on
below the alias does not. -/
example : resolve [("M", "Lib\\")] "" "M" = some "Lib\\"
    ∧ resolve [("M", "Lib\\")] "" ("M" ++ separator ++ "User") = some "Lib\\User" := by
  decide

/-- **A name below another one stands for what is below that which the other stands for,** under
the imports of every file, however malformed.  What a name stands for is, in a namespace that is
not rooted, a full name: once it is rooted it stands for itself, whatever is imported. -/
theorem resolve_below (ts : List Token) (space : String) (h : hasSubstance name = true)
    (rest : String) :
    ∃ full, resolve (.ofTokens ts) space name = some full
      ∧ resolve (.ofTokens ts) space (name ++ separator ++ rest) = some (full ++ separator ++ rest)
      ∧ (¬ IsRooted space → ∀ (imports : ImportTable) (other : String),
        resolve imports other (separator ++ full) = some full) := by
  have himports : ∀ e ∈ ImportTable.ofTokens ts, IsTight e.2 := fun e he =>
    ImportTable.isTight_of_mem_ofTokens he
  obtain ⟨full, hfull⟩ := Option.isSome_iff_exists.mp (resolve_isSome (.ofTokens ts) space h)
  refine ⟨full, hfull, resolve_append_below himports h hfull rest, fun hspace imports other => ?_⟩
  refine resolve_rooted (isFull_resolve himports ?_ hfull) imports other
  by_cases hempty : space = ""
  · exact Or.inl hempty
  · exact Or.inr (isFull_iff.mpr ⟨hempty, hspace⟩)

/-- An import with a separator at its end, under an alias. -/
def aliasFile : List Token :=
  [⟨.keyword .useWord, "use", 1⟩, ⟨.name, "Lib", 1⟩, ⟨.separator, "\\", 1⟩, ⟨.name, "Models", 1⟩,
    ⟨.separator, "\\", 1⟩, ⟨.keyword .asWord, "as", 1⟩, ⟨.name, "M", 1⟩, ⟨.symbol, ";", 1⟩]

/-- The alias with a separator at its end, in a namespace with one: below it the separators add
up, and what it stands for is no other name in a file that imports its first segment. -/
theorem resolve_below_alias :
    hasSubstance "M\\" = true ∧ ¬ IsRooted "App\\"
    ∧ resolve (.ofTokens aliasFile) "App\\" "M\\" = some "Lib\\Models\\"
    ∧ resolve (.ofTokens aliasFile) "App\\" ("M\\" ++ separator ++ "User")
        = some "Lib\\Models\\\\User"
    ∧ resolve [("Lib", "Shop")] "Other" (separator ++ "Lib\\Models\\")
        = some "Lib\\Models\\" := by
  have hsub : hasSubstance "M\\" = true := by decide
  have hspace : ¬ IsRooted "App\\" := by decide
  have halias : resolve (.ofTokens aliasFile) "App\\" "M\\" = some "Lib\\Models\\" := by
    decide +kernel
  obtain ⟨full, hfull, hbelow, hrooted⟩ := resolve_below aliasFile "App\\" hsub "User"
  obtain rfl : full = "Lib\\Models\\" := Option.some.inj (hfull.symm.trans halias)
  exact ⟨hsub, hspace, halias, hbelow, hrooted hspace [("Lib", "Shop")] "Other"⟩

end Below

end Name
end ClassLineage
