import ClassLineage.Proofs.Name
import ClassLineage.Proofs.Text.Case

/-!
# Names in another case

Trimming, cutting and joining look at separators alone, so that each of them gives the same of a
name and of its folded form, folded; and both have one normal form.  Imports are another matter:
an alias is found in the case alone in which it is imported.  A table of folded imports agrees
with the one that it is folded from on the names that are exact for that: those which meet no
alias of the table in another case.

## Main definitions

* `ImportTable.IsExactFor` — a segment meets the aliases of a table in its own case alone.
* `ImportTable.Folds` — a table agrees with another on what is exact, folded.

## Main results

* `Name.normalize_foldCase` — **a name and its folded form have one normal form.**
* `ImportTable.Folds.put` — importing the same, folded, keeps tables in agreement.
* `Name.resolve_foldCase` — a name that is exact stands for the same, folded.
* `Name.normalize_resolve_eq` — **names that are the same but for their case stand for the same but
  for its case,** where both are exact.
-/

namespace ClassLineage

open Text

/-! ### Names and their parts -/

namespace Name

theorem isSeparator_toLower (c : Char) : isSeparator c.toLower = isSeparator c :=
  apply_toLower (by decide) c

theorem isSegment_toLower (c : Char) : (!isSeparator c.toLower) = !isSeparator c := by
  rw [isSeparator_toLower]

@[simp] theorem foldCase_separator : foldCase separator = separator := by decide

theorem trimLeading_foldCase (name : String) :
    trimLeading (foldCase name) = foldCase (trimLeading name) := by
  rw [← String.toList_inj, trimLeading, trimLeading, toList_trimStart, toList_foldCase,
    toList_foldCase, toList_trimStart, dropWhile_map_of_apply isSeparator_toLower]

theorem trimEnd_foldCase (name : String) :
    trimEnd isSeparator (foldCase name) = foldCase (trimEnd isSeparator name) := by
  rw [← String.toList_inj, toList_trimEnd, toList_foldCase, toList_foldCase, toList_trimEnd,
    ← List.map_reverse, dropWhile_map_of_apply isSeparator_toLower, List.map_reverse]

theorem trimSeparators_foldCase (name : String) :
    trimSeparators (foldCase name) = foldCase (trimSeparators name) := by
  show trimEnd isSeparator (trimLeading (foldCase name)) = _
  rw [trimLeading_foldCase, trimEnd_foldCase]
  rfl

theorem basename_foldCase (name : String) :
    basename (foldCase name) = foldCase (basename name) := by
  rw [basename, trimEnd_foldCase, lastSegment, toList_foldCase, ← List.map_reverse,
    takeWhile_map_of_apply isSegment_toLower, ← List.map_reverse, ← foldCase_ofList]
  rfl

theorem qualify_foldCase (name space : String) :
    qualify (foldCase name) (foldCase space) = foldCase (qualify name space) := by
  by_cases h : space = ""
  · subst h
    rfl
  · rw [qualify_of_ne _ h, qualify_of_ne _ (mt foldCase_eq_empty_iff.mp h), foldCase_append,
      foldCase_append, foldCase_separator]

theorem hasSubstance_foldCase (name : String) :
    hasSubstance (foldCase name) = hasSubstance name := by
  rw [hasSubstance, hasSubstance, toList_foldCase, List.any_map]
  exact congrArg (List.any _) (funext isSegment_toLower)

theorem firstSegment_foldCase (name : String) :
    firstSegment (foldCase name) = foldCase (firstSegment name) := by
  rw [firstSegment, toList_foldCase, takeWhile_map_of_apply isSegment_toLower, ← foldCase_ofList]
  rfl

theorem afterFirst?_foldCase (name : String) :
    afterFirst? (foldCase name) = (afterFirst? name).map foldCase := by
  rw [afterFirst?, afterFirst?, toList_foldCase, dropWhile_map_of_apply isSegment_toLower]
  cases name.toList.dropWhile fun c => !isSeparator c with
  | nil => rfl
  | cons c rest => exact congrArg some (foldCase_ofList rest).symm

/-- **A name and its folded form have one normal form.** -/
theorem normalize_foldCase (name : String) : normalize (foldCase name) = normalize name := by
  rw [normalize, trimLeading_foldCase, lower_foldCase]
  rfl

/-- Names that are the same but for their case have one normal form. -/
theorem normalize_eq_of_foldCase_eq {a b : String} (h : foldCase a = foldCase b) :
    normalize a = normalize b := by
  rw [← normalize_foldCase a, h, normalize_foldCase]

/-- A name has leading separators if its folded form has. -/
theorem trimLeading_foldCase_eq_iff {name : String} :
    trimLeading (foldCase name) = foldCase name ↔ trimLeading name = name := by
  rw [trimLeading_foldCase]
  refine ⟨fun h => ?_, fun h => by rw [h]⟩
  have hlen := congrArg (fun s => s.toList.length) h
  simp only [length_toList_foldCase] at hlen
  have hsuffix : (trimLeading name).toList <:+ name.toList := by
    rw [trimLeading, toList_trimStart]
    exact List.dropWhile_suffix _
  exact String.toList_inj.mp (hsuffix.eq_of_length hlen)

end Name

/-! ### Imports -/

namespace ImportTable

variable {imports imports' : ImportTable}

/-- A segment meets the aliases of the table in its own case alone: an alias that is the segment
in some case is the segment as it is written. -/
def IsExactFor (imports : ImportTable) (segment : String) : Prop :=
  ∀ key ∈ imports.keys, foldCase key = foldCase segment → key = segment

instance (imports : ImportTable) (segment : String) : Decidable (imports.IsExactFor segment) :=
  inferInstanceAs
    (Decidable (∀ key ∈ imports.keys, foldCase key = foldCase segment → key = segment))

/-- The table `imports'` gives the folded form of each segment for which `imports` is exact what
`imports` gives the segment, folded. -/
def Folds (imports imports' : ImportTable) : Prop :=
  ∀ segment, imports.IsExactFor segment →
    imports'.find? (foldCase segment) = (imports.find? segment).map foldCase

theorem folds_nil : Folds [] [] := fun _ _ => rfl

/-- **Importing the same, folded, keeps tables in agreement.** -/
theorem Folds.put (h : imports.Folds imports') (given full : String) :
    Folds (imports.put given full) (imports'.put (foldCase given) (foldCase full)) := by
  intro segment hexact
  have hkeys : ∀ key, key ∈ imports.keys ∨ key = given → foldCase key = foldCase segment →
      key = segment := by
    intro key hkey
    refine hexact key ?_
    rw [Entries.keys_put]
    by_cases hmem : given ∈ imports.keys
    · rw [if_pos hmem]
      exact hkey.elim id fun heq => heq ▸ hmem
    · rw [if_neg hmem, List.mem_append, List.mem_singleton]
      exact hkey
  rw [Entries.find?_put, Entries.find?_put]
  by_cases hgiven : given = segment
  · rw [if_pos hgiven, if_pos (congrArg foldCase hgiven), Option.map_some]
  · -- the segment is exact for the alias, so that they stay two when they are folded
    rw [if_neg hgiven, if_neg fun heq => hgiven (hkeys given (Or.inr rfl) heq)]
    exact h segment fun key hkey => hkeys key (Or.inl hkey)

end ImportTable

/-! ### Resolution -/

namespace Name

/-- A name whose first segment is exact stands for the same, folded. -/
theorem resolve_foldCase {imports imports' : ImportTable} (h : imports.Folds imports')
    {name : String} (hexact : imports.IsExactFor (firstSegment name)) (space : String) :
    resolve imports' (foldCase space) (foldCase name)
      = (resolve imports space name).map foldCase := by
  rw [resolve, resolve, trimLeading_foldCase]
  by_cases hempty : trimLeading name = ""
  · rw [if_pos hempty, if_pos (foldCase_eq_empty_iff.mpr hempty)]
    rfl
  rw [if_neg hempty, if_neg (mt foldCase_eq_empty_iff.mp hempty), ← trimLeading_foldCase]
  by_cases hroot : trimLeading name = name
  · rw [if_neg (not_not.mpr hroot), if_neg (not_not.mpr (trimLeading_foldCase_eq_iff.mpr hroot)),
      afterFirst?_foldCase, firstSegment_foldCase, h _ hexact]
    cases imports.find? (firstSegment name) with
    | none =>
      rw [qualify_foldCase]
      cases afterFirst? name <;> rfl
    | some full =>
      cases afterFirst? name with
      | none => exact congrArg some (trimLeading_foldCase full)
      | some rest =>
        show some (trimSeparators (foldCase full) ++ separator ++ foldCase rest) = _
        rw [trimSeparators_foldCase, Option.map_some, foldCase_append, foldCase_append,
          foldCase_separator]
  · rw [if_pos hroot, if_pos (mt trimLeading_foldCase_eq_iff.mp hroot), trimLeading_foldCase]
    rfl

/-- **Names that are the same but for their case stand for the same but for its case,** where
tables are folded to one and each name is exact for its table. -/
theorem normalize_resolve_eq {imports imports' folded : ImportTable} (h : imports.Folds folded)
    (h' : imports'.Folds folded) {name name' space space' : String}
    (hname : foldCase name' = foldCase name) (hspace : foldCase space' = foldCase space)
    (hexact : imports.IsExactFor (firstSegment name))
    (hexact' : imports'.IsExactFor (firstSegment name')) :
    (resolve imports' space' name').map normalize = (resolve imports space name).map normalize := by
  have hfold : (resolve imports' space' name').map foldCase
      = (resolve imports space name).map foldCase := by
    rw [← resolve_foldCase h hexact, ← resolve_foldCase h' hexact', hname, hspace]
  have hnormal : normalize ∘ foldCase = normalize := funext normalize_foldCase
  rw [← hnormal, ← Option.map_map, ← Option.map_map, hfold]

end Name
end ClassLineage
