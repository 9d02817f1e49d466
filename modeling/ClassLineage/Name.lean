import ClassLineage.Text.Lower
import ClassLineage.Text.Trim

/-!
# Qualified names

A qualified name is a text of segments joined by backslashes, as in
`App\Models\User`.  Names compare without regard to case and to a leading
separator, so each name has a normal form.

## Main definitions

* `Name.isSeparator` — the character joins two segments.
* `Name.normalize` — the form in which names compare.
* `Name.basename` — the last segment.
* `Name.qualify` — a name inside a namespace.
-/

namespace ClassLineage
namespace Name

open Text

/-- The text between two segments. -/
def separator : String := "\\"

/-- The character joins two segments. -/
def isSeparator (c : Char) : Bool := c == '\\'

/-- The text without the separators at its start. -/
def trimLeading (s : String) : String := trimStart isSeparator s

/-- The text without the separators at its two ends. -/
def trimSeparators (s : String) : String := trimBoth isSeparator s

/-- The form in which names compare: lower-case, with no leading separator. -/
def normalize (name : String) : String := lower (trimLeading name)

/-- What follows the last separator of a name. -/
def lastSegment (name : String) : String :=
  String.ofList (name.toList.reverse.takeWhile fun c => !isSeparator c).reverse

/-- The last segment of a name, whatever separators end it. -/
def basename (name : String) : String := lastSegment (trimEnd isSeparator name)

/-- A name inside a namespace; the empty text is the global namespace. -/
def qualify (name space : String) : String :=
  if space = "" then name else space ++ separator ++ name

/-- A name has substance when it holds more than separators. -/
def hasSubstance (name : String) : Bool := name.toList.any fun c => !isSeparator c

@[simp] theorem qualify_global (name : String) : qualify name "" = name := rfl

theorem qualify_of_ne (name : String) {space : String} (h : space ≠ "") :
    qualify name space = space ++ separator ++ name := if_neg h

end Name
end ClassLineage
