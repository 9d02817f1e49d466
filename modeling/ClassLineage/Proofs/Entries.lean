import ClassLineage.Entries
import Mathlib.Data.List.Induction
import Mathlib.Data.List.Nodup

/-!
# Setting several entries

Entries are set one after the other, a later one replacing an earlier one of the same key.
What a list of settings leaves behind is a list of entries with each key once; to set these
is to do all the settings.  Where entries are set only if their keys are not there, an earlier
one stays.

## Main definitions

* `Entries.putNew`, `Entries.putNewAll` — entries that are set unless they are there.

## Main results

* `Entries.forall_mem_putAll` — what holds of all that is set holds of all that is there.
* `Entries.nodup_keys_putAll` — each key is there once.
* `Entries.putAll_putAll` — **setting what settings leave behind is doing these settings.**
* `Entries.putAll_eq_append` — new keys come last.
* `Entries.find?_putNewAll` — **of entries that are set unless they are there, the first counts.**
-/

namespace ClassLineage
namespace Entries

variable {α : Type} {key other : String} {value previous : α} {entries : Entries α}

theorem putAll_cons (e : String × α) (more entries : Entries α) :
    putAll (e :: more) entries = putAll more (put e.1 e.2 entries) := rfl

theorem putAll_concat (more : Entries α) (e : String × α) (entries : Entries α) :
    putAll (more ++ [e]) entries = put e.1 e.2 (putAll more entries) := by
  rw [putAll, List.foldl_append]
  rfl

theorem putAll_append (more others entries : Entries α) :
    putAll (more ++ others) entries = putAll others (putAll more entries) := by
  rw [putAll, List.foldl_append]
  rfl

/-! ### What is there -/

/-- What is found under a key is there. -/
theorem mem_of_find? (h : find? key entries = some value) : (key, value) ∈ entries := by
  induction entries with
  | nil => exact absurd h (by simp)
  | cons e rest ih =>
    rw [find?_cons] at h
    split at h
    · next he =>
      obtain ⟨k, v⟩ := e
      rw [Option.some.injEq] at h
      subst he h
      exact List.mem_cons_self
    · exact List.mem_cons_of_mem _ (ih h)

theorem mem_of_mem_put {e : String × α} (h : e ∈ put key value entries) :
    e = (key, value) ∨ e ∈ entries := by
  induction entries with
  | nil => exact Or.inl (List.mem_singleton.mp h)
  | cons first rest ih =>
    rw [put_cons] at h
    by_cases hk : first.1 = key
    · rw [if_pos hk] at h
      rcases List.mem_cons.mp h with h | h
      · exact Or.inl h
      · exact Or.inr (List.mem_cons_of_mem _ h)
    · rw [if_neg hk] at h
      rcases List.mem_cons.mp h with rfl | h
      · exact Or.inr List.mem_cons_self
      · exact (ih h).imp id (List.mem_cons_of_mem _)

/-- What holds of all that is set, and of all that was there, holds of all that is there. -/
theorem forall_mem_putAll {P : String × α → Prop} {more : Entries α} (h : ∀ e ∈ entries, P e)
    (hmore : ∀ e ∈ more, P e) : ∀ e ∈ putAll more entries, P e := by
  induction more generalizing entries with
  | nil => exact h
  | cons first more ih =>
    rw [putAll_cons]
    refine ih (fun e he => ?_) fun e he => hmore e (List.mem_cons_of_mem _ he)
    rcases mem_of_mem_put he with rfl | he
    · exact hmore first List.mem_cons_self
    · exact h e he

theorem mem_keys_put : key ∈ keys (put key value entries) := by
  rw [keys_put]
  by_cases h : key ∈ keys entries
  · rwa [if_pos h]
  · rw [if_neg h]
    exact List.mem_append_right _ List.mem_cons_self

theorem nodup_keys_put (h : (keys entries).Nodup) : (keys (put key value entries)).Nodup := by
  rw [keys_put]
  by_cases hk : key ∈ keys entries
  · rwa [if_pos hk]
  · rw [if_neg hk]
    exact List.nodup_append.mpr ⟨h, List.nodup_singleton key, fun a ha b hb hab =>
      hk (List.mem_singleton.mp hb ▸ hab ▸ ha)⟩

/-- Each key is there once. -/
theorem nodup_keys_putAll {more : Entries α} (h : (keys entries).Nodup) :
    (keys (putAll more entries)).Nodup := by
  induction more generalizing entries with
  | nil => exact h
  | cons e more ih => exact ih (nodup_keys_put h)

/-! ### Setting a key again -/

/-- Of two values set for one key the later one counts. -/
theorem put_put : put key value (put key previous entries) = put key value entries := by
  induction entries with
  | nil => rw [put_nil, put_nil, put_cons, if_pos rfl]
  | cons e rest ih =>
    rw [put_cons, put_cons]
    by_cases hk : e.1 = key
    · rw [if_pos hk, if_pos hk, put_cons, if_pos rfl]
    · rw [if_neg hk, if_neg hk, put_cons, if_neg hk, ih]

/-- A key that is there keeps its place, so that it may be set before or after another one. -/
theorem put_comm (hne : key ≠ other) (h : key ∈ keys entries) {w : α} :
    put key value (put other w entries) = put other w (put key value entries) := by
  induction entries with
  | nil => exact absurd h List.not_mem_nil
  | cons e rest ih =>
    by_cases hk : e.1 = key
    · have ho : e.1 ≠ other := fun ho => hne (hk.symm.trans ho)
      rw [put_cons other, if_neg ho, put_cons, if_pos hk, put_cons key, if_pos hk,
        put_cons other, if_neg hne]
    · have hrest : key ∈ keys rest := by
        rcases List.mem_cons.mp h with h | h
        · exact absurd h.symm hk
        · exact h
      by_cases ho : e.1 = other
      · rw [put_cons other, if_pos ho, put_cons, if_neg hne.symm, put_cons key, if_neg hk,
          put_cons other, if_pos ho]
      · rw [put_cons other, if_neg ho, put_cons, if_neg hk, put_cons key, if_neg hk,
          put_cons other, if_neg ho, ih hrest]

theorem put_putAll {more : Entries α} (hmore : key ∉ keys more) (h : key ∈ keys entries) :
    put key value (putAll more entries) = putAll more (put key value entries) := by
  induction more generalizing entries with
  | nil => rfl
  | cons e more ih =>
    have hne : key ≠ e.1 := fun heq => hmore (heq ▸ List.mem_cons_self)
    have hnot : key ∉ keys more := fun hmem => hmore (List.mem_cons_of_mem _ hmem)
    have hmem : key ∈ keys (put e.1 e.2 entries) := by
      rw [keys_put]
      by_cases he : e.1 ∈ keys entries
      · rwa [if_pos he]
      · rw [if_neg he]
        exact List.mem_append_left _ h
    rw [putAll_cons, putAll_cons, ih hnot hmem, put_comm hne h]

/-- Setting entries of which one is set anew is setting them, and then the one. -/
theorem putAll_put {more : Entries α} (h : (keys more).Nodup) (entries : Entries α) :
    putAll (put key value more) entries = put key value (putAll more entries) := by
  induction more generalizing entries with
  | nil => rfl
  | cons e more ih =>
    obtain ⟨hnot, hnodup⟩ := List.nodup_cons.mp h
    rw [put_cons]
    by_cases hk : e.1 = key
    · subst hk
      rw [if_pos rfl, putAll_cons, putAll_cons, put_putAll hnot mem_keys_put, put_put]
    · rw [if_neg hk, putAll_cons, putAll_cons, ih hnodup]

/-- **Setting what settings leave behind is doing these settings.** -/
theorem putAll_putAll (more entries : Entries α) :
    putAll (putAll more []) entries = putAll more entries := by
  induction more using List.reverseRecOn with
  | nil => rfl
  | append_singleton more e ih =>
    have hnodup : (keys (putAll more ([] : Entries α))).Nodup :=
      nodup_keys_putAll List.nodup_nil
    rw [putAll_concat, putAll_put hnodup, ih, putAll_concat]

/-! ### New keys -/

section New

variable {more : Entries α}

theorem isSome_find?_iff : (find? key entries).isSome ↔ key ∈ keys entries := by
  induction entries with
  | nil => simp [keys]
  | cons e rest ih =>
    rw [find?_cons]
    by_cases hk : e.1 = key
    · simp [keys, hk]
    · have hne : key ≠ e.1 := Ne.symm hk
      rw [if_neg hk, ih]
      simp [keys, hne]

theorem find?_eq_none_iff : find? key entries = none ↔ key ∉ keys entries := by
  rw [← isSome_find?_iff, Option.not_isSome_iff_eq_none]

theorem find?_append (key : String) (entries more : Entries α) :
    find? key (entries ++ more) = (find? key entries).or (find? key more) := by
  induction entries with
  | nil => simp
  | cons e rest ih =>
    rw [List.cons_append, find?_cons, find?_cons, ih]
    split <;> simp

/-- A new key comes last. -/
theorem put_of_not_mem (h : key ∉ keys entries) :
    put key value entries = entries ++ [(key, value)] := by
  induction entries with
  | nil => rfl
  | cons e rest ih =>
    unfold keys at h
    rw [List.map_cons, List.mem_cons, not_or] at h
    rw [put_cons, if_neg (Ne.symm h.1), ih h.2, List.cons_append]

/-- Where each key is there once, it is not before its entry. -/
theorem not_mem_of_nodup (h : (keys (entries ++ (key, value) :: more)).Nodup) :
    key ∉ keys entries := by
  unfold keys at h
  rw [List.map_append, List.nodup_append] at h
  intro hmem
  exact h.2.2 key hmem key List.mem_cons_self rfl

/-- Setting entries with new keys adds them at the end. -/
theorem putAll_eq_append (h : (keys (entries ++ more)).Nodup) :
    putAll more entries = entries ++ more := by
  induction more generalizing entries with
  | nil =>
    rw [List.append_nil]
    rfl
  | cons e more ih =>
    rw [putAll_cons, put_of_not_mem (not_mem_of_nodup h), ih (by simpa using h),
      List.append_assoc, List.singleton_append]

end New

/-! ### Entries that stay -/

/-- The entries with `key` set to `value`, unless it is there already. -/
def putNew (key : String) (value : α) (entries : Entries α) : Entries α :=
  if (find? key entries).isSome then entries else entries ++ [(key, value)]

/-- The entries with those of `more` set, one after the other, whose keys are not there. -/
def putNewAll (more entries : Entries α) : Entries α :=
  more.foldl (fun acc e => acc.putNew e.1 e.2) entries

theorem putNewAll_cons (e : String × α) (more entries : Entries α) :
    putNewAll (e :: more) entries = putNewAll more (putNew e.1 e.2 entries) := rfl

section Stay

variable {more : Entries α}

/-- What is there stays. -/
theorem find?_putNew :
    find? other (putNew key value entries)
      = (find? other entries).or (find? other [(key, value)]) := by
  unfold putNew
  split
  · next h =>
    obtain ⟨previous, hprevious⟩ := Option.isSome_iff_exists.mp h
    by_cases hk : key = other
    · subst hk
      rw [hprevious]
      rfl
    · simp [find?_cons, hk]
  · exact find?_append other entries [(key, value)]

/-- **Of entries that are set unless they are there, the first counts.** -/
theorem find?_putNewAll :
    find? key (putNewAll more entries) = (find? key entries).or (find? key more) := by
  induction more generalizing entries with
  | nil => simp [putNewAll]
  | cons e more ih =>
    rw [putNewAll_cons, ih, find?_putNew, Option.or_assoc, ← find?_append]
    rfl

theorem mem_keys_putNew :
    other ∈ keys (putNew key value entries) ↔ other ∈ keys entries ∨ other = key := by
  rw [← isSome_find?_iff, find?_putNew, Option.isSome_or, Bool.or_eq_true, isSome_find?_iff,
    isSome_find?_iff]
  simp [keys]

theorem mem_keys_putNewAll :
    key ∈ keys (putNewAll more entries) ↔ key ∈ keys entries ∨ key ∈ keys more := by
  rw [← isSome_find?_iff, find?_putNewAll, Option.isSome_or, Bool.or_eq_true, isSome_find?_iff,
    isSome_find?_iff]

theorem mem_of_mem_putNewAll {e : String × α} (h : e ∈ putNewAll more entries) :
    e ∈ entries ∨ e ∈ more := by
  induction more generalizing entries with
  | nil => exact Or.inl h
  | cons first more ih =>
    rw [putNewAll_cons] at h
    rcases ih h with h | h
    · unfold putNew at h
      split at h
      · exact Or.inl h
      · rcases List.mem_append.mp h with h | h
        · exact Or.inl h
        · exact Or.inr (List.mem_singleton.mp h ▸ List.mem_cons_self)
    · exact Or.inr (List.mem_cons_of_mem _ h)

theorem nodup_keys_putNewAll (h : (keys entries).Nodup) :
    (keys (putNewAll more entries)).Nodup := by
  induction more generalizing entries with
  | nil => exact h
  | cons e more ih =>
    rw [putNewAll_cons]
    apply ih
    unfold putNew
    split
    · exact h
    · next hnew =>
      rw [isSome_find?_iff] at hnew
      rw [← put_of_not_mem hnew]
      exact nodup_keys_put h

end Stay

end Entries
end ClassLineage
