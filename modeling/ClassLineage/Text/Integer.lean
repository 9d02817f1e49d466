import ClassLineage.Text.Blank
import ClassLineage.Text.Digit
import ClassLineage.Text.Quoted
import ClassLineage.Text.Trim

/-!
# Reading integers

An integer may stand between blanks and carry a sign; its digits are decimal
digits of any script, with single underscores allowed between them.  A number of
more than 4300 digits is refused.

## Main definitions

* `IntegerError` — why a text is not read, with its `message`.
* `readInteger` — the integer that a text writes.
-/

namespace ClassLineage
namespace Text

/-- Why a text is not read as an integer. -/
inductive IntegerError
  /-- The text does not write an integer. -/
  | malformed (text : String)
  /-- The text writes a number of too many digits. -/
  | tooLong (digits : Nat)
deriving Repr, DecidableEq

/-- The most digits that are read. -/
def maxDigits : Nat := 4300

/-- The most characters of a quoted text that a message shows. -/
def maxShown : Nat := 200

/-- What is said of a text that is not read. -/
def IntegerError.message : IntegerError → String
  | .malformed text =>
    "invalid literal for int() with base 10: " ++ String.ofList ((quoted text).toList.take maxShown)
  | .tooLong digits =>
    "Exceeds the limit (4300 digits) for integer string conversion: value has "
      ++ toString digits ++ " digits; use sys.set_int_max_str_digits() to increase the limit"

/-- A blank that may stand around a number: any but the information separators. -/
def isNumberBlank (c : Char) : Bool := isBlank c && !(0x1C ≤ c.toNat && c.toNat ≤ 0x1F)

/-- The sign at the start of a text, and what follows it. -/
def splitSign : List Char → Bool × List Char
  | '-' :: cs => (true, cs)
  | '+' :: cs => (false, cs)
  | cs => (false, cs)

/-- Underscores stand singly, and only between digits; `start` tells that no digit
has come before. -/
def underscoresFit : (start : Bool) → List Char → Bool
  | _, [] => true
  | start, c :: cs =>
    if c = '_' then !start && !cs.isEmpty && underscoresFit true cs else underscoresFit false cs

/-- The number that a list of digits writes, after `n`. -/
def digitsValue (n : Nat) (digits : List Nat) : Nat := digits.foldl (fun n d => 10 * n + d) n

/-- The integer that a text writes. -/
def readInteger (s : String) : Except IntegerError Int :=
  let (negative, body) := splitSign (trimBoth isNumberBlank s).toList
  let isBody := fun c => c = '_' || (digitValue? c).isSome
  let run := body.takeWhile isBody
  let digits := run.filterMap digitValue?
  if digits.isEmpty || !underscoresFit true run then .error (.malformed s)
  else if maxDigits < digits.length then .error (.tooLong digits.length)
  else if !(body.dropWhile isBody).isEmpty then .error (.malformed s)
  else
    let n := digitsValue 0 digits
    .ok (if negative then -(n : Int) else n)

end Text
end ClassLineage
