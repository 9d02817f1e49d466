import ClassLineage.Entries
import ClassLineage.Name

/-!
# Resolving names

A name as it is written in a file stands for a full name.  A leading separator
marks a full name; otherwise the first segment may be an alias that the file
imports, and a name without an alias belongs to the current namespace.

## Main definitions

* `ImportTable` — the full name that each alias of a file stands for.
* `Name.resolve` — the full name that a written name stands for.
-/

namespace ClassLineage

/-- The full name that each alias of a file stands for. -/
abbrev ImportTable := Entries String

namespace Name

open Text

/-- The first segment of a name. -/
def firstSegment (name : String) : String :=
  String.ofList (name.toList.takeWhile fun c => !isSeparator c)

/-- What follows the first separator of a name, if it has one. -/
def afterFirst? (name : String) : Option String :=
  match name.toList.dropWhile fun c => !isSeparator c with
  | [] => none
  | _ :: rest => some (String.ofList rest)

/-- The full name that a name written inside `space` stands for; none if the name
holds nothing but separators. -/
def resolve (imports : ImportTable) (space raw : String) : Option String :=
  let trimmed := trimLeading raw
  if trimmed = "" then none
  else if trimmed ≠ raw then some trimmed
  else match afterFirst? raw, imports.find? (firstSegment raw) with
    | none, some full => some (trimLeading full)
    | some rest, some full => some (trimSeparators full ++ separator ++ rest)
    | _, none => some (qualify raw space)

end Name
end ClassLineage
