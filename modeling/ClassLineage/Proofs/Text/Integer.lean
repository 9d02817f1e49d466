import ClassLineage.Proofs.Text.Trim
import ClassLineage.Text.Integer
import Mathlib.Data.List.TakeWhile
import Mathlib.Data.Nat.Digits.Defs
import Mathlib.Tactic.Positivity
import Mathlib.Tactic.Ring

/-!
# Reading back integers

The decimal text of a natural number is read as this number, if it has no more digits than may be
read; and no number that is read has more.

## Main results

* `lt_of_readInteger` — a number that is read has no more digits than may be read.
* `readInteger_toString` — **a number is read back from its decimal text.**
-/

namespace ClassLineage
namespace Text

/-! ### Numbers that are read -/

theorem digitValue?_lt {c : Char} {d : Nat} (h : digitValue? c = some d) : d < 10 := by
  obtain ⟨r, -, rfl⟩ := Option.map_eq_some_iff.mp h
  exact Nat.mod_lt _ (by decide)

/-- Digits write a number below the power of ten of their count. -/
theorem digitsValue_lt {digits : List Nat} (h : ∀ d ∈ digits, d < 10) (n : Nat) :
    digitsValue n digits < (n + 1) * 10 ^ digits.length := by
  induction digits generalizing n with
  | nil => simp [digitsValue]
  | cons d digits ih =>
    have hd := h d List.mem_cons_self
    have hrest := ih (fun e he => h e (List.mem_cons_of_mem _ he)) (10 * n + d)
    calc digitsValue n (d :: digits)
        = digitsValue (10 * n + d) digits := rfl
      _ < (10 * n + d + 1) * 10 ^ digits.length := hrest
      _ ≤ ((n + 1) * 10) * 10 ^ digits.length := Nat.mul_le_mul_right _ (by omega)
      _ = (n + 1) * 10 ^ (d :: digits).length := by rw [List.length_cons, Nat.pow_succ']; ring

/-- **A number that is read has no more digits than may be read.** -/
theorem lt_of_readInteger {s : String} {n : Int} (h : readInteger s = .ok n) :
    n < 10 ^ maxDigits := by
  unfold readInteger at h
  dsimp only at h
  generalize List.takeWhile _ (splitSign _).2 = run at h
  split at h
  · cases h
  split at h
  · cases h
  next hlong =>
  split at h
  · cases h
  have hdigits : ∀ d ∈ run.filterMap digitValue?, d < 10 := by
    intro d hd
    obtain ⟨c, -, hc⟩ := List.mem_filterMap.mp hd
    exact digitValue?_lt hc
  have hvalue : digitsValue 0 (run.filterMap digitValue?) < 10 ^ maxDigits := by
    calc digitsValue 0 (run.filterMap digitValue?)
        < (0 + 1) * 10 ^ (run.filterMap digitValue?).length := digitsValue_lt hdigits 0
      _ = 10 ^ (run.filterMap digitValue?).length := by rw [Nat.zero_add, Nat.one_mul]
      _ ≤ 10 ^ maxDigits := Nat.pow_le_pow_right (by decide) (Nat.le_of_not_lt hlong)
  have hcast : (digitsValue 0 (run.filterMap digitValue?) : Int) < 10 ^ maxDigits := by
    exact_mod_cast hvalue
  have hpos : (0 : Int) < 10 ^ maxDigits := by positivity
  obtain rfl := Except.ok.inj h
  split
  · omega
  · exact hcast

/-! ### Numbers that are written -/

/-- What is needed of a digit of ASCII: it is no blank, no sign and no underscore, and it has its
value. -/
theorem of_isDigit {c : Char} (h : c.isDigit = true) :
    isNumberBlank c = false ∧ c ≠ '-' ∧ c ≠ '+' ∧ c ≠ '_' ∧
      digitValue? c = some (c.toNat - '0'.toNat) := by
  have hrange : 48 ≤ c.toNat ∧ c.toNat ≤ 57 := by
    simpa [Char.isDigit, UInt32.le_iff_toNat_le] using h
  have hall : ∀ k < 10, isNumberBlank (Char.ofNat (48 + k)) = false ∧ Char.ofNat (48 + k) ≠ '-' ∧
      Char.ofNat (48 + k) ≠ '+' ∧ Char.ofNat (48 + k) ≠ '_' ∧
      digitValue? (Char.ofNat (48 + k)) = some ((Char.ofNat (48 + k)).toNat - '0'.toNat) := by
    decide
  have hc : c = Char.ofNat (48 + (c.toNat - 48)) := by
    rw [Nat.add_sub_cancel' hrange.1, Char.ofNat_toNat]
  rw [hc]
  exact hall _ (by omega)

/-- Underscores fit where there are none. -/
theorem underscoresFit_of_ne {cs : List Char} (h : ∀ c ∈ cs, c ≠ '_') (start : Bool) :
    underscoresFit start cs = true := by
  induction cs generalizing start with
  | nil => rw [underscoresFit]
  | cons c cs ih =>
    rw [underscoresFit, if_neg (h c List.mem_cons_self)]
    exact ih (fun d hd => h d (List.mem_cons_of_mem _ hd)) false

theorem splitSign_of_ne {cs : List Char} (h : ∀ c ∈ cs, c ≠ '-' ∧ c ≠ '+') :
    splitSign cs = (false, cs) := by
  unfold splitSign
  split
  · exact absurd rfl (h _ List.mem_cons_self).1
  · exact absurd rfl (h _ List.mem_cons_self).2
  · rfl

/-- **A number is read back from its decimal text.** -/
theorem readInteger_toString {n : Nat} (h : n < 10 ^ maxDigits) :
    readInteger (toString n) = .ok (n : Int) := by
  have hdigit : ∀ c ∈ Nat.toDigits 10 n, c.isDigit = true := fun c hc =>
    Nat.isDigit_of_mem_toDigits (by decide) (by decide) hc
  have htext : (toString n).toList = Nat.toDigits 10 n := by
    rw [Nat.toString_eq_repr, Nat.toList_repr]
  have htrim : trimBoth isNumberBlank (toString n) = toString n := by
    apply (IsTrimmed.of_all fun c hc => ?_).trimBoth_eq
    exact (of_isDigit (hdigit c (htext ▸ hc))).1
  have hsign : splitSign (Nat.toDigits 10 n) = (false, Nat.toDigits 10 n) :=
    splitSign_of_ne fun c hc =>
      ⟨(of_isDigit (hdigit c hc)).2.1, (of_isDigit (hdigit c hc)).2.2.1⟩
  have hbody : ∀ c ∈ Nat.toDigits 10 n, (decide (c = '_') || (digitValue? c).isSome) = true := by
    intro c hc
    rw [(of_isDigit (hdigit c hc)).2.2.2.2]
    exact Bool.or_true _
  have hvalues : (Nat.toDigits 10 n).filterMap digitValue?
      = (Nat.toDigits 10 n).map fun c => c.toNat - '0'.toNat := by
    rw [← List.filterMap_eq_map]
    exact List.filterMap_congr fun c hc => (of_isDigit (hdigit c hc)).2.2.2.2
  have hlength : (Nat.toDigits 10 n).length ≤ maxDigits :=
    (Nat.length_toDigits_le_iff (by decide) (by decide)).mpr h
  have hnumber : digitsValue 0 ((Nat.toDigits 10 n).map fun c => c.toNat - '0'.toNat) = n := by
    rw [digitsValue, List.foldl_map, ← Nat.ofDigitChars_eq_foldl]
    exact Nat.ofDigitChars_toDigits (by decide) (by decide)
  have hfits := underscoresFit_of_ne (fun c hc => (of_isDigit (hdigit c hc)).2.2.2.1) true
  unfold readInteger
  dsimp only
  rw [htrim, htext, hsign]
  dsimp only
  rw [List.takeWhile_eq_self_iff.mpr hbody, List.dropWhile_eq_nil_iff.mpr hbody, hvalues, hfits,
    hnumber]
  simp [Nat.toDigits_ne_nil, Nat.not_lt.mpr hlength]

end Text
end ClassLineage
