import ClassLineage.Text.Hex
import ClassLineage.Text.Printable

/-!
# Quoted texts

How a message shows a text that it complains about: between single quotes, or
between double quotes when the text holds a single quote and no double one.  A
backslash and the quote in use are escaped, as is every character that is not
printable.

## Main definitions

* `quoteMark` — the quote that a text is put between.
* `quotedChar` — a character as it stands between quotes.
* `quoted` — a text between its quotes.
-/

namespace ClassLineage
namespace Text

/-- The quote that a text is put between: a single one, unless the text holds a
single quote and no double quote. -/
def quoteMark (cs : List Char) : Char :=
  if cs.contains '\x27' && !cs.contains '\x22' then '\x22' else '\x27'

/-- A character as it stands in a text between `mark`s. -/
def quotedChar (mark c : Char) : List Char :=
  if c = '\\' ∨ c = mark then ['\\', c]
  else if c = '\t' then ['\\', 't']
  else if c = '\n' then ['\\', 'n']
  else if c = '\r' then ['\\', 'r']
  else if isPrintable c then [c]
  else if c.toNat < 0x100 then '\\' :: 'x' :: hexPadded 2 c.toNat
  else if c.toNat < 0x10000 then '\\' :: 'u' :: hexPadded 4 c.toNat
  else '\\' :: 'U' :: hexPadded 8 c.toNat

/-- A text between its quotes, as messages show it. -/
def quoted (s : String) : String :=
  let mark := quoteMark s.toList
  String.ofList (mark :: s.toList.flatMap (quotedChar mark) ++ [mark])

end Text
end ClassLineage
