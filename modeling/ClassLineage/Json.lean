import ClassLineage.Entries

/-!
# JSON values

A JSON value keeps the entries of its objects in the order in which they were
first written, because a saved graph shows that order.

## Main definitions

* `Json` — the values.
* `Json.get?` — the value of an entry of an object.
* `Json.isTruthy` — the value counts as set.
-/

namespace ClassLineage

/-- A JSON value. -/
inductive Json
  /-- No value. -/
  | null
  /-- A truth value. -/
  | bool (b : Bool)
  /-- An integer. -/
  | int (n : Int)
  /-- A number with a fraction or an exponent, or none at all, as it was written. -/
  | real (text : String)
  /-- A text. -/
  | str (s : String)
  /-- A list of values. -/
  | arr (items : List Json)
  /-- An object: its entries in order, each key at most once. -/
  | obj (entries : List (String × Json))

namespace Json

/-- The value of the entry `key`, if the value is an object that has it. -/
def get? (key : String) : Json → Option Json
  | .obj entries => Entries.find? key entries
  | _ => none

/-- The value counts as set: it is neither null nor false, nor zero, nor empty. -/
def isTruthy : Json → Bool
  | .null => false
  | .bool b => b
  | .int n => n != 0
  | .real text =>
    (text.toList.takeWhile fun c => c ≠ 'e' && c ≠ 'E').any fun c => !"+-.0".toList.contains c
  | .str s => s != ""
  | .arr items => !items.isEmpty
  | .obj entries => !entries.isEmpty

/-- A list of texts. -/
def texts (l : List String) : Json := .arr (l.map .str)

/-- A text, or null in its absence. -/
def optText : Option String → Json
  | some s => .str s
  | none => .null

end Json

end ClassLineage
