import ClassLineage.Php.Character
import ClassLineage.Text.Hex

/-!
# Numbers, operators and escapes

How long the lexemes are whose form alone tells where they end.

## Main definitions

* `Php.numberLength` — a number.
* `Php.operatorLength` — an operator or another mark.
* `Php.escapeLength` — an escape sequence between double quotes.
-/

namespace ClassLineage
namespace Php

/-- The character is a digit, or divides digits. -/
def isDigitOr (isDigit : Char → Bool) (c : Char) : Bool := isDigit c || c = '_'

/-- The character is a hexadecimal digit. -/
def isHexDigit (c : Char) : Bool := (Text.hexValue? c).isSome

/-- How long the run of digits at the start is. -/
def digitsLength (isDigit : Char → Bool) (cs : List Char) : Nat :=
  (cs.takeWhile (isDigitOr isDigit)).length

/-- How long the fraction at the start is: a point with the digits after it.  Two
points start no fraction. -/
def fractionLength (cs : List Char) : Nat :=
  if startsWith "." cs && !startsWith ".." cs then digitsLength Char.isDigit (cs.drop 1) + 1 else 0

/-- How long the exponent at the start is. -/
def exponentLength (cs : List Char) : Nat :=
  let sign := if startsWith "+" (cs.drop 1) || startsWith "-" (cs.drop 1) then 1 else 0
  let digits := digitsLength Char.isDigit (cs.drop (1 + sign))
  if (startsWith "e" cs || startsWith "E" cs) && digits != 0 then 1 + sign + digits else 0

/-- How long the decimal number at the start is. -/
def decimalLength (cs : List Char) : Nat :=
  let whole := digitsLength Char.isDigit cs
  let fraction := fractionLength (cs.drop whole)
  whole + fraction + exponentLength (cs.drop (whole + fraction))

/-- How long the number at the start is: decimal, or after `0x`, `0b` or `0o` in the
base that the letter tells. -/
def numberLength (cs : List Char) : Nat :=
  let based (letter : Char) (isDigit : Char → Bool) : Nat :=
    match cs with
    | '0' :: c :: rest => if c.toLower = letter then digitsLength isDigit rest else 0
    | _ => 0
  let digits := based 'x' isHexDigit + based 'b' Char.isDigit + based 'o' Char.isDigit
  if digits = 0 then decimalLength cs else digits + 2

/-- The characters start with a number. -/
def hasNumber : List Char → Bool
  | '.' :: c :: _ => c.isDigit
  | c :: _ => c.isDigit
  | [] => false

/-- The operators of three characters. -/
def longOperators : List String := ["===", "!==", "<=>", "**=", "...", "??=", "<<=", ">>=", "?->"]

/-- The operators of two characters. -/
def shortOperators : List String :=
  ["==", "!=", "<>", "<=", ">=", "&&", "||", "??", "<<", ">>", "++", "--", "+=", "-=", "*=", "/=",
    ".=", "%=", "&=", "|=", "^=", "->", "=>", "::", "**", "#[", "|>"]

/-- How long the operator or other mark at the start is. -/
def operatorLength (cs : List Char) : Nat :=
  if longOperators.any (startsWith · cs) then 3
  else if shortOperators.any (startsWith · cs) then 2
  else 1

/-- The characters that a backslash escapes between double quotes. -/
def escapable : List Char := ['n', 'r', 't', 'v', 'e', 'f', '\\', '$', '\x22']

/-- The character is an octal digit. -/
def isOctalDigit (c : Char) : Bool := '0' ≤ c && c ≤ '7'

/-- How long the escape sequence at the start is, of those that stand between double
quotes: a single character, an octal code, a hexadecimal code, or a code point.  A
`\u` without its braces counts by itself. -/
def escapeLength (cs : List Char) : Nat :=
  match cs with
  | '\\' :: 'x' :: rest =>
    let digits := ((rest.take 2).takeWhile isHexDigit).length
    if digits = 0 then 0 else digits + 2
  | '\\' :: 'u' :: '\x7b' :: rest =>
    let digits := (rest.takeWhile isHexDigit).length
    if digits != 0 && startsWith "\x7d" (rest.drop digits) then digits + 4 else 2
  | '\\' :: 'u' :: _ => 2
  | '\\' :: c :: rest =>
    if escapable.contains c then 2
    else if isOctalDigit c then (((c :: rest).take 3).takeWhile isOctalDigit).length + 1
    else 0
  | _ => 0

end Php
end ClassLineage
