import ClassLineage.Json
import ClassLineage.Text.Hex

/-!
# Reading JSON

A text is read as one value, with blanks allowed around it and between its parts.
The reader takes what the format's grammar allows, and the words for numbers that
are none; a key written twice keeps its first place and its last value.  Every
reader takes the characters that are left and returns those that it leaves; the
number that counts down bounds the nesting and the length of what is read, and the
length of the text is always enough.

## Main definitions

* `Json.skipBlanks` — the characters after the blanks.
* `Json.readText` — a text after its opening quote.
* `Json.readNumber` — a number.
* `Json.readValue`, `Json.readItems`, `Json.readEntries` — values, and the rest of a
  list or an object.
* `Json.parse?` — the value that a whole text writes.
-/

namespace ClassLineage
namespace Json

open Text

/-- The character is a blank of the format. -/
def isFormatBlank (c : Char) : Bool := c = ' ' || c = '\t' || c = '\n' || c = '\r'

/-- The characters after the blanks at the start. -/
def skipBlanks (cs : List Char) : List Char := cs.dropWhile isFormatBlank

/-- The number that four hexadecimal digits write, and what follows them. -/
def readUnit? : List Char → Option (Nat × List Char)
  | a :: b :: c :: d :: cs => do
    let a ← hexValue? a
    let b ← hexValue? b
    let c ← hexValue? c
    let d ← hexValue? d
    some (((a * 16 + b) * 16 + c) * 16 + d, cs)
  | _ => none

/-- The character that an escape by UTF-16 units writes, after its `\u`: one unit, or
a pair of surrogates. -/
def readEscapedUnits? (cs : List Char) : Option (Char × List Char) := do
  let (high, cs) ← readUnit? cs
  if 0xD800 ≤ high && high < 0xDC00 then
    match cs with
    | '\\' :: 'u' :: cs =>
      let (low, cs) ← readUnit? cs
      if 0xDC00 ≤ low && low < 0xE000 then
        some (Char.ofNat (0x10000 + (high - 0xD800) * 0x400 + (low - 0xDC00)), cs)
      else none
    | _ => none
  else if 0xDC00 ≤ high && high < 0xE000 then none
  else some (Char.ofNat high, cs)

/-- The character that a one-letter escape stands for. -/
def plainEscape? (c : Char) : Option Char :=
  if c = '\x22' ∨ c = '\\' ∨ c = '/' then some c
  else if c = 'n' then some '\n'
  else if c = 'r' then some '\r'
  else if c = 't' then some '\t'
  else if c = 'f' then some '\x0c'
  else if c = 'b' then some '\x08'
  else none

/-- The text up to its closing quote, after the characters `done`, which are given
last first. -/
def readText (fuel : Nat) (done : List Char) (cs : List Char) : Option (String × List Char) :=
  match fuel, cs with
  | 0, _ => none
  | _, [] => none
  | fuel + 1, c :: cs =>
    if c = '\x22' then some (String.ofList done.reverse, cs)
    else if c = '\\' then
      match cs with
      | [] => none
      | e :: cs =>
        if e = 'u' then
          match readEscapedUnits? cs with
          | some (c, cs) => readText fuel (c :: done) cs
          | none => none
        else
          match plainEscape? e with
          | some c => readText fuel (c :: done) cs
          | none => none
    else if c < ' ' then none
    else readText fuel (c :: done) cs

/-- The character is a decimal digit of ASCII. -/
def isAsciiDigit (c : Char) : Bool := '0' ≤ c && c ≤ '9'

/-- The fraction at the start of the characters, and what follows it. -/
def splitFraction : List Char → List Char × List Char
  | '.' :: cs =>
    let digits := cs.takeWhile isAsciiDigit
    if digits.isEmpty then ([], '.' :: cs) else ('.' :: digits, cs.dropWhile isAsciiDigit)
  | cs => ([], cs)

/-- The exponent at the start of the characters, and what follows it. -/
def splitExponent : List Char → List Char × List Char
  | [] => ([], [])
  | e :: cs =>
    if e = 'e' ∨ e = 'E' then
      let sign := match cs with
        | s :: _ => if s = '+' ∨ s = '-' then [s] else []
        | [] => []
      let body := cs.drop sign.length
      let digits := body.takeWhile isAsciiDigit
      if digits.isEmpty then ([], e :: cs) else (e :: sign ++ digits, body.dropWhile isAsciiDigit)
    else ([], e :: cs)

/-- The number at the start of the characters, which come after a sign if `negative`. -/
def readNumber (negative : Bool) (cs : List Char) : Option (Json × List Char) :=
  let whole := match cs with
    | '0' :: _ => ['0']
    | _ => cs.takeWhile isAsciiDigit
  if whole.isEmpty then none
  else
    let (fraction, rest) := splitFraction (cs.drop whole.length)
    let (exponent, rest) := splitExponent rest
    let sign := if negative then ['-'] else []
    if fraction.isEmpty && exponent.isEmpty then
      let n := whole.foldl (fun n c => 10 * n + (c.toNat - '0'.toNat)) 0
      some (.int (if negative then -(n : Int) else n), rest)
    else some (.real (String.ofList (sign ++ whole ++ fraction ++ exponent)), rest)

/-- What follows a word that the characters start with. -/
def afterWord? (word : List Char) (cs : List Char) : Option (List Char) :=
  if word.isPrefixOf cs then some (cs.drop word.length) else none

/-- The value of a word or a number at the start of the characters. -/
def readScalar (cs : List Char) : Option (Json × List Char) :=
  match cs with
  | 'n' :: _ => (afterWord? "null".toList cs).map ((.null, ·))
  | 't' :: _ => (afterWord? "true".toList cs).map ((.bool true, ·))
  | 'f' :: _ => (afterWord? "false".toList cs).map ((.bool false, ·))
  | 'N' :: _ => (afterWord? "NaN".toList cs).map ((.real "NaN", ·))
  | 'I' :: _ => (afterWord? "Infinity".toList cs).map ((.real "Infinity", ·))
  | '-' :: 'I' :: _ => (afterWord? "-Infinity".toList cs).map ((.real "-Infinity", ·))
  | '-' :: rest => readNumber true rest
  | _ => readNumber false cs

mutual

/-- The value at the start of the characters. -/
def readValue (fuel : Nat) (cs : List Char) : Option (Json × List Char) :=
  match fuel with
  | 0 => none
  | fuel + 1 =>
    match cs with
    | '\x22' :: cs => (readText fuel [] cs).map fun r => (.str r.1, r.2)
    | '[' :: cs =>
      match skipBlanks cs with
      | ']' :: cs => some (.arr [], cs)
      | cs => readItems fuel [] cs
    | '\x7b' :: cs =>
      match skipBlanks cs with
      | '\x7d' :: cs => some (.obj [], cs)
      | cs => readEntries fuel [] cs
    | cs => readScalar cs

/-- The rest of a list, at an item; `done` holds the items before it, last first. -/
def readItems (fuel : Nat) (done : List Json) (cs : List Char) : Option (Json × List Char) :=
  match fuel with
  | 0 => none
  | fuel + 1 =>
    match readValue fuel cs with
    | none => none
    | some (v, cs) =>
      match skipBlanks cs with
      | ',' :: cs => readItems fuel (v :: done) (skipBlanks cs)
      | ']' :: cs => some (.arr (v :: done).reverse, cs)
      | _ => none

/-- The rest of an object, at a key; `done` holds the entries before it. -/
def readEntries (fuel : Nat) (done : Entries Json) (cs : List Char) : Option (Json × List Char) :=
  match fuel with
  | 0 => none
  | fuel + 1 =>
    match cs with
    | '\x22' :: cs =>
      match readText fuel [] cs with
      | none => none
      | some (key, cs) =>
        match skipBlanks cs with
        | ':' :: cs =>
          match readValue fuel (skipBlanks cs) with
          | none => none
          | some (v, cs) =>
            match skipBlanks cs with
            | ',' :: cs => readEntries fuel (done.put key v) (skipBlanks cs)
            | '\x7d' :: cs => some (.obj (done.put key v), cs)
            | _ => none
        | _ => none
    | _ => none

end

/-- The value that a whole text writes, if it writes one. -/
def parse? (s : String) : Option Json :=
  match readValue (s.toList.length + 1) (skipBlanks s.toList) with
  | some (v, cs) => if (skipBlanks cs).isEmpty then some v else none
  | none => none

end Json
end ClassLineage
