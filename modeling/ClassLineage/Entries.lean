/-!
# Entries in order

A list of entries, each a key with a value, in the order in which the keys first
came.  Setting a key that is there keeps its place.

## Main definitions

* `Entries` — the lists.
* `Entries.find?` — the value of a key.
* `Entries.put` — the entries with a key set.
* `Entries.putAll` — the entries with several keys set, one after the other.
* `Entries.keys` — the keys in order.
-/

namespace ClassLineage

/-- Entries, each a key with a value, in the order in which the keys first came. -/
abbrev Entries (α : Type) := List (String × α)

namespace Entries

variable {α : Type}

/-- The value of `key`: that of the first entry with this key. -/
def find? (key : String) : Entries α → Option α
  | [] => none
  | e :: rest => if e.1 = key then some e.2 else find? key rest

/-- The entries with `key` set to `value`: in its old place if it is there, else at the
end. -/
def put (key : String) (value : α) : Entries α → Entries α
  | [] => [(key, value)]
  | e :: rest => if e.1 = key then (key, value) :: rest else e :: put key value rest

/-- The entries with those of `more` set, one after the other. -/
def putAll (more entries : Entries α) : Entries α :=
  more.foldl (fun acc e => acc.put e.1 e.2) entries

/-- The keys in order. -/
def keys (entries : Entries α) : List String := entries.map (·.1)

@[simp] theorem find?_nil (key : String) : find? key ([] : Entries α) = none := rfl

theorem find?_cons (key : String) (e : String × α) (rest : Entries α) :
    find? key (e :: rest) = if e.1 = key then some e.2 else find? key rest := rfl

@[simp] theorem put_nil (key : String) (value : α) : put key value [] = [(key, value)] := rfl

theorem put_cons (key : String) (value : α) (e : String × α) (rest : Entries α) :
    put key value (e :: rest)
      = if e.1 = key then (key, value) :: rest else e :: put key value rest := rfl

/-- Setting a key changes the value of that key only. -/
theorem find?_put (key other : String) (value : α) (entries : Entries α) :
    find? other (put key value entries)
      = if key = other then some value else find? other entries := by
  induction entries with
  | nil => simp [find?_cons]
  | cons e rest ih =>
    by_cases hk : e.1 = key
    · by_cases ho : key = other <;> simp [put_cons, find?_cons, hk, ho]
    · by_cases ho : key = other
      · subst ho; simp [put_cons, find?_cons, hk, ih]
      · simp [put_cons, find?_cons, hk, ih, ho]

/-- Setting a key keeps the keys that are there in place, and adds it at the end if
it is new. -/
theorem keys_put (key : String) (value : α) (entries : Entries α) :
    keys (put key value entries)
      = if key ∈ keys entries then keys entries else keys entries ++ [key] := by
  induction entries with
  | nil => simp [keys]
  | cons e rest ih =>
    by_cases hk : e.1 = key
    · simp [put_cons, keys, hk]
    · have hk' : key ≠ e.1 := fun h => hk h.symm
      rw [put_cons, if_neg hk]
      show e.1 :: keys (put key value rest) = _
      rw [ih]
      by_cases hm : key ∈ keys rest
      · simp [keys] at hm ⊢; simp [hk', hm]
      · simp [keys] at hm ⊢; simp [hk', hm]

end Entries
end ClassLineage
