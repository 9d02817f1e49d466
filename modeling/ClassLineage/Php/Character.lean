/-!
# Characters of PHP code

## Main definitions

* `Php.isGap` — the character separates lexemes.
* `Php.startsIdentifier`, `Php.continuesIdentifier` — the characters of identifiers.
* `Php.dropGaps` — what follows blanks and comments.
* `Php.commentLength?` — how long the comment at the start is.
-/

namespace ClassLineage
namespace Php

/-- The character separates lexemes: an ASCII blank, a no-break space, or one of the
characters without width. -/
def isGap (c : Char) : Bool :=
  c = ' ' || ('\t' ≤ c && c ≤ '\r') || ['\u00A0', '\u200B', '\u2060', '\uFEFF'].contains c

/-- The character may start an identifier: an ASCII letter, an underscore, or any
character beyond ASCII, but of the first plane only, that does not separate lexemes. -/
def startsIdentifier (c : Char) : Bool :=
  c.isAlpha || c = '_' || (0x80 ≤ c.toNat && c.toNat < 0x10000 && !isGap c)

/-- The character may stand inside an identifier. -/
def continuesIdentifier (c : Char) : Bool := startsIdentifier c || c.isDigit

/-- The characters start with an identifier. -/
def hasIdentifier (cs : List Char) : Bool := cs.head?.any startsIdentifier

/-- How long the identifier at the start is. -/
def identifierLength (cs : List Char) : Nat :=
  if hasIdentifier cs then (cs.takeWhile continuesIdentifier).length else 0

/-- The characters start with a text. -/
def startsWith (text : String) (cs : List Char) : Bool := text.toList.isPrefixOf cs

/-- A hash sign starts a comment, unless it opens an attribute. -/
def hasHashComment (cs : List Char) : Bool := startsWith "#" cs && !startsWith "#[" cs

/-- How many characters come before the end of a line or the end of the code. -/
def lineLength : List Char → Nat
  | [] => 0
  | c :: cs => if c = '\n' ∨ c = '\r' ∨ startsWith "?>" (c :: cs) then 0 else lineLength cs + 1

/-- How many characters a block comment has from inside it on. -/
def blockLength : List Char → Nat
  | [] => 0
  | c :: cs => if startsWith "*/" (c :: cs) then 2 else blockLength cs + 1

/-- How long the comment at the start is, if there is one. -/
def commentLength? (cs : List Char) : Option Nat :=
  if startsWith "/*" cs then some (blockLength (cs.drop 2) + 2)
  else if startsWith "//" cs || hasHashComment cs then some (lineLength cs)
  else none

/-- Where a search for the next lexeme stands. -/
inductive Gap
  /-- Outside comments. -/
  | blank
  /-- In a comment that ends with the line. -/
  | line
  /-- In a comment that ends with a mark of its own. -/
  | block

/-- What follows the blanks and comments at the start. -/
def dropGaps : Gap → List Char → List Char
  | _, [] => []
  | .blank, c :: cs =>
    if isGap c then dropGaps .blank cs
    else if startsWith "/*" (c :: cs) then dropGaps .block cs
    else if startsWith "//" (c :: cs) || hasHashComment (c :: cs) then dropGaps .line cs
    else c :: cs
  | .line, c :: cs =>
    if c = '\n' ∨ c = '\r' then dropGaps .blank cs
    else if startsWith "?>" (c :: cs) then c :: cs
    else dropGaps .line cs
  | .block, [_] => []
  | .block, c :: d :: cs =>
    if c = '*' ∧ d = '/' then dropGaps .blank cs else dropGaps .block (d :: cs)

end Php
end ClassLineage
