import ClassLineage.Json
import ClassLineage.Text.Hex

/-!
# Writing JSON

A value is written over several lines, two columns of indentation for each level,
an empty list or object on one line.  Only ASCII is written: any other character
of a text is escaped by its UTF-16 units.

## Main definitions

* `Json.escapeChar` — a character as it stands in a written text.
* `Json.textChars` — a text between its quotes.
* `Json.chars` — a value at a level of indentation.
* `Json.render` — a value as text, without a final newline.
* `Json.renderLine` — a value on one line without blanks.
-/

namespace ClassLineage
namespace Json

open Text

/-- A UTF-16 unit as an escape. -/
def escapeUnit (n : Nat) : List Char := '\\' :: 'u' :: hexPadded 4 n

/-- A character as it stands in a written text. -/
def escapeChar (c : Char) : List Char :=
  if c = '\x22' ∨ c = '\\' then ['\\', c]
  else if c = '\n' then ['\\', 'n']
  else if c = '\r' then ['\\', 'r']
  else if c = '\t' then ['\\', 't']
  else if c = '\x0c' then ['\\', 'f']
  else if c = '\x08' then ['\\', 'b']
  else if ' ' ≤ c ∧ c ≤ '~' then [c]
  else if c.toNat < 0x10000 then escapeUnit c.toNat
  else
    let n := c.toNat - 0x10000
    escapeUnit (0xD800 + n / 0x400) ++ escapeUnit (0xDC00 + n % 0x400)

/-- A text between its quotes. -/
def textChars (s : String) : List Char :=
  '\x22' :: s.toList.flatMap escapeChar ++ ['\x22']

/-- The start of a line at a level of indentation. -/
def newline (level : Nat) : List Char := '\n' :: List.replicate (2 * level) ' '

mutual

/-- A value as it stands at a level of indentation. -/
def chars (level : Nat) : Json → List Char
  | .null => "null".toList
  | .bool true => "true".toList
  | .bool false => "false".toList
  | .int n => (toString n).toList
  | .real text => text.toList
  | .str s => textChars s
  | .arr [] => ['[', ']']
  | .arr (v :: items) =>
    '[' :: newline (level + 1) ++ chars (level + 1) v ++ itemChars (level + 1) items
      ++ newline level ++ [']']
  | .obj [] => ['\x7b', '\x7d']
  | .obj ((k, v) :: entries) =>
    '\x7b' :: newline (level + 1) ++ textChars k ++ [':', ' '] ++ chars (level + 1) v
      ++ entryChars (level + 1) entries ++ newline level ++ ['\x7d']

/-- The items of a list after the first, each on a line of its own. -/
def itemChars (level : Nat) : List Json → List Char
  | [] => []
  | v :: items => ',' :: newline level ++ chars level v ++ itemChars level items

/-- The entries of an object after the first, each on a line of its own. -/
def entryChars (level : Nat) : List (String × Json) → List Char
  | [] => []
  | (k, v) :: entries =>
    ',' :: newline level ++ textChars k ++ [':', ' '] ++ chars level v ++ entryChars level entries

end

/-- A value as text, over several lines, without a final newline. -/
def render (v : Json) : String := String.ofList (chars 0 v)

mutual

/-- A value as text on one line without blanks, as pieces in order. -/
def linePieces : Json → List String
  | .null => ["null"]
  | .bool true => ["true"]
  | .bool false => ["false"]
  | .int n => [toString n]
  | .real text => [text]
  | .str s => [String.ofList (textChars s)]
  | .arr [] => ["[]"]
  | .arr (v :: items) => "[" :: linePieces v ++ itemPieces items ++ ["]"]
  | .obj [] => ["\x7b\x7d"]
  | .obj ((k, v) :: entries) =>
    "\x7b" :: String.ofList (textChars k) :: ":" :: linePieces v ++ entryPieces entries ++ ["\x7d"]

/-- The items of a list after the first, on one line. -/
def itemPieces : List Json → List String
  | [] => []
  | v :: items => "," :: linePieces v ++ itemPieces items

/-- The entries of an object after the first, on one line. -/
def entryPieces : List (String × Json) → List String
  | [] => []
  | (k, v) :: entries =>
    "," :: String.ofList (textChars k) :: ":" :: linePieces v ++ entryPieces entries

end

/-- A value on one line without blanks. -/
def renderLine (v : Json) : String := String.join (linePieces v)

end Json
end ClassLineage
