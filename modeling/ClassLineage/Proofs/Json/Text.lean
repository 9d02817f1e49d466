import ClassLineage.Json.Parser
import ClassLineage.Json.Printer
import Mathlib.Tactic.SplitIfs

/-!
# Reading back written texts

A character stands in a written text as itself, as a letter after a backslash, or as one or two
UTF-16 units; each of these is read back as that character, whatever follows.

## Main results

* `Text.hexValue?_hexDigit`, `Json.readUnit?_hexPadded` — digits and units are read back.
* `Json.readEscapedUnits?_pair` — so are the two units of a character beyond the first plane.
* `Json.isPrinted_escapeChar` — only printed characters of ASCII are written.
* `Json.readText_escapeChar` — **a character is read back as it stands in a text,** and
  `Json.readText_append` — so is a text, up to its closing quote.
-/

namespace ClassLineage

/-- A digit has its value. -/
theorem Text.hexValue?_hexDigit {n : Nat} (h : n < 16) : hexValue? (hexDigit n) = some n := by
  have hall : ∀ n < 16, hexValue? (hexDigit n) = some n := by decide
  exact hall n h

namespace Json

open Text

variable {c : Char} {cs rest : List Char} {n fuel : Nat}

/-! ### Units -/

/-- A unit is read back from its four digits. -/
theorem readUnit?_hexPadded (h : n < 0x10000) (cs : List Char) :
    readUnit? (hexPadded 4 n ++ cs) = some (n, cs) := by
  have hdigits : hexPadded 4 n ++ cs
      = hexDigit (n / 16 / 16 / 16 % 16) :: hexDigit (n / 16 / 16 % 16) :: hexDigit (n / 16 % 16)
        :: hexDigit (n % 16) :: cs := rfl
  have hvalue : ∀ m, hexValue? (hexDigit (m % 16)) = some (m % 16) := fun m =>
    hexValue?_hexDigit (Nat.mod_lt m (by decide))
  rw [hdigits, readUnit?]
  simp only [hvalue, Option.bind_eq_bind, Option.bind_some, Option.some.injEq, Prod.mk.injEq,
    and_true]
  omega

/-- A unit that is no surrogate stands for a character. -/
theorem readEscapedUnits?_single (h : n < 0xD800 ∨ 0xDFFF < n ∧ n < 0x10000) (cs : List Char) :
    readEscapedUnits? (hexPadded 4 n ++ cs) = some (Char.ofNat n, cs) := by
  have hhigh : ¬ (0xD800 ≤ n && decide (n < 0xDC00)) = true := by
    simp only [Bool.and_eq_true, decide_eq_true_eq]
    omega
  have hlow : ¬ (0xDC00 ≤ n && decide (n < 0xE000)) = true := by
    simp only [Bool.and_eq_true, decide_eq_true_eq]
    omega
  unfold readEscapedUnits?
  rw [readUnit?_hexPadded (by omega)]
  simp only [Option.bind_eq_bind, Option.bind_some]
  rw [if_neg hhigh, if_neg hlow]

/-- Two surrogates stand for a character beyond the first plane. -/
theorem readEscapedUnits?_pair (high low : Nat) (hhigh : 0xD800 ≤ high) (hhigh' : high < 0xDC00)
    (hlow : 0xDC00 ≤ low) (hlow' : low < 0xE000) (cs : List Char) :
    readEscapedUnits? (hexPadded 4 high ++ (escapeUnit low ++ cs))
      = some (Char.ofNat (0x10000 + (high - 0xD800) * 0x400 + (low - 0xDC00)), cs) := by
  have hfirst : (0xD800 ≤ high && decide (high < 0xDC00)) = true := by
    simp only [Bool.and_eq_true, decide_eq_true_eq]
    exact ⟨hhigh, hhigh'⟩
  have hsecond : (0xDC00 ≤ low && decide (low < 0xE000)) = true := by
    simp only [Bool.and_eq_true, decide_eq_true_eq]
    exact ⟨hlow, hlow'⟩
  unfold readEscapedUnits? escapeUnit
  rw [readUnit?_hexPadded (by omega)]
  simp only [Option.bind_eq_bind, Option.bind_some, List.cons_append]
  rw [if_pos hfirst, readUnit?_hexPadded (by omega)]
  simp only [Option.bind_some]
  rw [if_pos hsecond]

/-! ### Characters and texts -/

theorem readText_quote (fuel : Nat) (done cs : List Char) :
    readText (fuel + 1) done ('\x22' :: cs) = some (String.ofList done.reverse, cs) := rfl

/-- A letter after a backslash is read as the character that it stands for. -/
theorem readText_plainEscape {e : Char} (hu : e ≠ 'u') (he : plainEscape? e = some c) (fuel : Nat)
    (done cs : List Char) :
    readText (fuel + 1) done ('\\' :: e :: cs) = readText fuel (c :: done) cs := by
  rw [readText, if_neg (by decide), if_pos rfl]
  simp only [if_neg hu, he]

/-- Units after a backslash are read as the character that they stand for. -/
theorem readText_units (h : readEscapedUnits? cs = some (c, rest)) (fuel : Nat) (done : List Char) :
    readText (fuel + 1) done ('\\' :: 'u' :: cs) = readText fuel (c :: done) rest := by
  rw [readText, if_neg (by decide), if_pos rfl]
  simp only [if_true, h]

/-- Any other character but a control is read as itself. -/
theorem readText_plain (hquote : c ≠ '\x22') (hslash : c ≠ '\\') (hplain : ¬ c < ' ') (fuel : Nat)
    (done cs : List Char) : readText (fuel + 1) done (c :: cs) = readText fuel (c :: done) cs := by
  rw [readText.eq_def]
  simp only [if_neg hquote, if_neg hslash, if_neg hplain]

/-- **A character is read back as it stands in a text.**  The cases are the ways in which it may
stand there. -/
theorem readText_escapeChar (c : Char) (fuel : Nat) (done cs : List Char) :
    readText (fuel + 1) done (escapeChar c ++ cs) = readText fuel (c :: done) cs := by
  have hvalid : c.toNat < 0xD800 ∨ 0xDFFF < c.toNat ∧ c.toNat < 0x110000 := c.valid
  unfold escapeChar
  split_ifs with hquote hnewline hreturn htab hfeed hback hplain hsmall
  · rcases hquote with rfl | rfl
    · exact readText_plainEscape (by decide) rfl fuel done cs
    · exact readText_plainEscape (by decide) rfl fuel done cs
  · subst hnewline
    exact readText_plainEscape (by decide) rfl fuel done cs
  · subst hreturn
    exact readText_plainEscape (by decide) rfl fuel done cs
  · subst htab
    exact readText_plainEscape (by decide) rfl fuel done cs
  · subst hfeed
    exact readText_plainEscape (by decide) rfl fuel done cs
  · subst hback
    exact readText_plainEscape (by decide) rfl fuel done cs
  · rw [not_or] at hquote
    exact readText_plain hquote.1 hquote.2 (Char.not_lt.mpr hplain.1) fuel done cs
  · -- a character of the first plane is one unit
    have hunits := readEscapedUnits?_single (n := c.toNat) (by omega) cs
    rw [Char.ofNat_toNat] at hunits
    exact readText_units hunits fuel done
  · -- any other one is a pair of surrogates
    have hcode : 0x10000 + (0xD800 + (c.toNat - 0x10000) / 0x400 - 0xD800) * 0x400
        + (0xDC00 + (c.toNat - 0x10000) % 0x400 - 0xDC00) = c.toNat := by omega
    have hunits := readEscapedUnits?_pair (0xD800 + (c.toNat - 0x10000) / 0x400)
      (0xDC00 + (c.toNat - 0x10000) % 0x400) (by omega) (by omega) (by omega) (by omega) cs
    rw [hcode, Char.ofNat_toNat] at hunits
    rw [List.append_assoc]
    exact readText_units hunits fuel done

/-- **A text is read back up to its closing quote.** -/
theorem readText_append (s : List Char) (done rest : List Char) (hfuel : s.length < fuel) :
    readText fuel done (s.flatMap escapeChar ++ '\x22' :: rest)
      = some (String.ofList (done.reverse ++ s), rest) := by
  induction s generalizing fuel done with
  | nil =>
    cases fuel with
    | zero => simp at hfuel
    | succ fuel => rw [List.flatMap_nil, List.nil_append, readText_quote, List.append_nil]
  | cons c s ih =>
    cases fuel with
    | zero => simp at hfuel
    | succ fuel =>
      have hlen : s.length < fuel := by
        rw [List.length_cons] at hfuel
        omega
      rw [List.flatMap_cons, List.append_assoc, readText_escapeChar, ih _ hlen,
        List.reverse_cons, List.append_assoc, List.singleton_append]

theorem escapeChar_ne_nil (c : Char) : escapeChar c ≠ [] := by
  unfold escapeChar escapeUnit
  split_ifs <;> simp

/-- The character belongs to ASCII and is printed: it is no control. -/
def IsPrinted (c : Char) : Prop := ' ' ≤ c ∧ c ≤ '~'

instance : DecidablePred IsPrinted := fun c => inferInstanceAs (Decidable (' ' ≤ c ∧ c ≤ '~'))

theorem isPrinted_hexPadded {width : Nat} (h : c ∈ hexPadded width n) : IsPrinted c := by
  have hall : ∀ m < 16, IsPrinted (hexDigit m) := by decide
  induction width generalizing n with
  | zero => cases h
  | succ width ih =>
    rw [hexPadded, List.mem_append, List.mem_singleton] at h
    rcases h with h | rfl
    · exact ih h
    · exact hall _ (Nat.mod_lt n (by decide))

theorem isPrinted_escapeUnit (h : c ∈ escapeUnit n) : IsPrinted c := by
  unfold escapeUnit at h
  rw [List.mem_cons, List.mem_cons] at h
  rcases h with rfl | rfl | h
  · decide
  · decide
  · exact isPrinted_hexPadded h

/-- Whatever a character is, only printed ones are written for it. -/
theorem isPrinted_escapeChar {d : Char} (h : d ∈ escapeChar c) : IsPrinted d := by
  have hletter : ∀ e : Char, IsPrinted e → d ∈ ['\\', e] → IsPrinted d := by
    intro e he hd
    simp only [List.mem_cons, List.not_mem_nil, or_false] at hd
    rcases hd with rfl | rfl
    · decide
    · exact he
  unfold escapeChar at h
  split_ifs at h with hquote hnewline hreturn htab hfeed hback hplain hsmall
  · apply hletter c _ h
    rcases hquote with rfl | rfl <;> decide
  · exact hletter 'n' (by decide) h
  · exact hletter 'r' (by decide) h
  · exact hletter 't' (by decide) h
  · exact hletter 'f' (by decide) h
  · exact hletter 'b' (by decide) h
  · rw [List.mem_singleton] at h
    exact h ▸ hplain
  · exact isPrinted_escapeUnit h
  · rcases List.mem_append.mp h with h | h
    · exact isPrinted_escapeUnit h
    · exact isPrinted_escapeUnit h

/-- No text is written shorter than it is. -/
theorem length_le_flatMap_escapeChar (s : List Char) :
    s.length ≤ (s.flatMap escapeChar).length := by
  induction s with
  | nil => simp
  | cons c s ih =>
    have hpos := List.length_pos_iff.mpr (escapeChar_ne_nil c)
    rw [List.flatMap_cons, List.length_append, List.length_cons]
    omega

end Json
end ClassLineage
