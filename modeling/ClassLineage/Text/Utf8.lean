/-!
# UTF-8 with replacement

Reading bytes as text.  Bytes that form no character are not refused: each longest
start of a character that breaks off, and each byte that starts none, is read as
one replacement character.

## Main definitions

* `Pending` — a character of which some bytes are still to come.
* `begin` — what a byte does between characters.
* `step` — what a byte does after a given start.
* `decode` — the characters that bytes stand for.
* `encode` — the bytes of a text.
-/

namespace ClassLineage
namespace Text
namespace Utf8

/-- The character that stands for bytes forming none. -/
def replacement : Char := '\uFFFD'

/-- A character of which some bytes are still to come. -/
structure Pending where
  /-- How many bytes are to come, at least one. -/
  left : Nat
  /-- The bits read so far. -/
  bits : Nat
  /-- The least byte that may come next. -/
  low : Nat
  /-- The greatest byte that may come next. -/
  high : Nat
deriving Repr, DecidableEq

/-- The start that a leading byte makes.  Only the second byte is restricted beyond
being a continuation: that leaves out long forms, surrogates and what lies beyond
the last code point. -/
def pending? (b : Nat) : Option Pending :=
  if b < 0xC2 then none
  else if b < 0xE0 then some ⟨1, b - 0xC0, 0x80, 0xBF⟩
  else if b = 0xE0 then some ⟨2, 0, 0xA0, 0xBF⟩
  else if b = 0xED then some ⟨2, 0xD, 0x80, 0x9F⟩
  else if b < 0xF0 then some ⟨2, b - 0xE0, 0x80, 0xBF⟩
  else if b = 0xF0 then some ⟨3, 0, 0x90, 0xBF⟩
  else if b < 0xF4 then some ⟨3, b - 0xF0, 0x80, 0xBF⟩
  else if b = 0xF4 then some ⟨3, 4, 0x80, 0x8F⟩
  else none

/-- What a byte does between characters: the characters it completes, and the start
it makes. -/
def begin (b : Nat) : List Char × Option Pending :=
  if b < 0x80 then ([Char.ofNat b], none)
  else match pending? b with
    | some p => ([], some p)
    | none => ([replacement], none)

/-- What a byte does after a start: it continues the character, or the start is
given up and the byte begins anew. -/
def step : Option Pending → Nat → List Char × Option Pending
  | none, b => begin b
  | some p, b =>
    if p.low ≤ b && b ≤ p.high then
      let bits := 64 * p.bits + (b - 0x80)
      if p.left ≤ 1 then ([Char.ofNat bits], none)
      else ([], some ⟨p.left - 1, bits, 0x80, 0xBF⟩)
    else
      let (cs, next) := begin b
      (replacement :: cs, next)

/-- The characters that bytes stand for, after a start. -/
def decodeFrom : Option Pending → List UInt8 → List Char
  | none, [] => []
  | some _, [] => [replacement]
  | state, b :: bs => (step state b.toNat).1 ++ decodeFrom (step state b.toNat).2 bs

/-- The text that bytes stand for. -/
def decode (bytes : List UInt8) : String := String.ofList (decodeFrom none bytes)

/-- The bytes of a text. -/
def encode (s : String) : List UInt8 := s.toList.flatMap String.utf8EncodeChar

@[simp] theorem decodeFrom_nil : decodeFrom none [] = [] := rfl

theorem decodeFrom_cons (state : Option Pending) (b : UInt8) (bs : List UInt8) :
    decodeFrom state (b :: bs)
      = (step state b.toNat).1 ++ decodeFrom (step state b.toNat).2 bs := by
  cases state <;> rfl

@[simp] theorem toList_decode (bytes : List UInt8) :
    (decode bytes).toList = decodeFrom none bytes := String.toList_ofList

theorem encode_append (s t : String) : encode (s ++ t) = encode s ++ encode t := by
  simp [encode]

end Utf8
end Text
end ClassLineage
