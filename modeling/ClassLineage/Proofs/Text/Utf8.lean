import ClassLineage.Text.Utf8

/-!
# Reading back what is written in UTF-8

The bytes of a text stand for that text: each character is written as a leading byte and
the bytes that continue it, and is read back from these, whatever follows.

## Main results

* `decodeFrom_continue`, `decodeFrom_complete` — what a continuing byte does.
* `decodeFrom_encodeChar` — a character is read back.
* `decode_encode` — **a text is read back.**
* `exists_between` — between two characters stands a piece of the text.
-/

namespace ClassLineage
namespace Text
namespace Utf8

variable {p : Pending} {b : UInt8}

/-- A continuing byte that is not the last one adds its bits. -/
theorem decodeFrom_continue (hl : 1 < p.left) (hlow : p.low ≤ b.toNat) (hhigh : b.toNat ≤ p.high)
    (bs : List UInt8) :
    decodeFrom (some p) (b :: bs)
      = decodeFrom (some ⟨p.left - 1, 64 * p.bits + (b.toNat - 0x80), 0x80, 0xBF⟩) bs := by
  have hin : (p.low ≤ b.toNat && b.toNat ≤ p.high) = true := by simp [hlow, hhigh]
  rw [decodeFrom_cons, step, if_pos hin]
  simp only [if_neg (Nat.not_le.mpr hl), List.nil_append]

/-- The last continuing byte completes the character. -/
theorem decodeFrom_complete (hl : p.left = 1) (hlow : p.low ≤ b.toNat) (hhigh : b.toNat ≤ p.high)
    (bs : List UInt8) :
    decodeFrom (some p) (b :: bs)
      = Char.ofNat (64 * p.bits + (b.toNat - 0x80)) :: decodeFrom none bs := by
  have hin : (p.low ≤ b.toNat && b.toNat ≤ p.high) = true := by simp [hlow, hhigh]
  rw [decodeFrom_cons, step, if_pos hin]
  simp only [if_pos (Nat.le_of_eq hl), List.singleton_append]

/-- A leading byte starts a character. -/
theorem decodeFrom_begin (hb : 0x80 ≤ b.toNat) (hp : pending? b.toNat = some p) (bs : List UInt8) :
    decodeFrom none (b :: bs) = decodeFrom (some p) bs := by
  rw [decodeFrom_cons, step, begin, if_neg (Nat.not_lt.mpr hb), hp]
  rfl

/-! ### Leading bytes -/

/-- The start of a character of two bytes. -/
theorem pending?_two {v : Nat} (h : 0x80 ≤ v) (hv : v < 0x800) :
    pending? (v / 64 + 0xC0) = some ⟨1, v / 64, 0x80, 0xBF⟩ := by
  rw [pending?, if_neg (by omega), if_pos (by omega), Nat.add_sub_cancel]

/-- The start of a character of three bytes, with the bounds of the second one. -/
theorem pending?_three {v : Nat} (h : 0x800 ≤ v) (hv : v < 0xD800 ∨ 0xDFFF < v ∧ v < 0x10000) :
    ∃ low high, pending? (v / 4096 + 0xE0) = some ⟨2, v / 4096, low, high⟩ ∧
      low ≤ v / 64 % 64 + 0x80 ∧ v / 64 % 64 + 0x80 ≤ high := by
  rw [pending?, if_neg (by omega), if_neg (by omega)]
  split
  · next hb => exact ⟨0xA0, 0xBF, by rw [show v / 4096 = 0 by omega], by omega, by omega⟩
  · split
    · next hb => exact ⟨0x80, 0x9F, by rw [show v / 4096 = 0xD by omega], by omega, by omega⟩
    · rw [if_pos (by omega), Nat.add_sub_cancel]
      exact ⟨0x80, 0xBF, rfl, by omega, by omega⟩

/-- The start of a character of four bytes, with the bounds of the second one. -/
theorem pending?_four {v : Nat} (h : 0x10000 ≤ v) (hv : v < 0x110000) :
    ∃ low high, pending? (v / 262144 + 0xF0) = some ⟨3, v / 262144, low, high⟩ ∧
      low ≤ v / 4096 % 64 + 0x80 ∧ v / 4096 % 64 + 0x80 ≤ high := by
  rw [pending?, if_neg (by omega), if_neg (by omega), if_neg (by omega), if_neg (by omega),
    if_neg (by omega)]
  split
  · next hb => exact ⟨0x90, 0xBF, by rw [show v / 262144 = 0 by omega], by omega, by omega⟩
  · split
    · rw [Nat.add_sub_cancel]
      exact ⟨0x80, 0xBF, rfl, by omega, by omega⟩
    · next hb =>
      rw [if_pos (by omega)]
      exact ⟨0x80, 0x8F, by rw [show v / 262144 = 4 by omega], by omega, by omega⟩

/-! ### Characters and texts -/

theorem toNat_ofNat {n : Nat} (h : n < 256) : (UInt8.ofNat n).toNat = n := Nat.mod_eq_of_lt h

/-- A character is read back from its bytes, whatever follows.  The cases are its lengths. -/
theorem decodeFrom_encodeChar (c : Char) (bs : List UInt8) :
    decodeFrom none (String.utf8EncodeChar c ++ bs) = c :: decodeFrom none bs := by
  have hvalid : c.val.toNat < 0xD800 ∨ 0xDFFF < c.val.toNat ∧ c.val.toNat < 0x110000 := c.valid
  have hchar : Char.ofNat c.val.toNat = c := Char.ofNat_toNat c
  rw [String.utf8EncodeChar]
  obtain ⟨v, hv⟩ : ∃ v, c.val.toNat = v := ⟨_, rfl⟩
  rw [hv] at hvalid hchar
  simp only [hv]
  split
  · -- one byte stands for itself
    next h1 =>
    rw [List.singleton_append, decodeFrom_cons, step, begin, toNat_ofNat (by omega),
      if_pos (by omega), hchar]
    rfl
  · have hlast : (UInt8.ofNat (v % 0x40 + 0x80)).toNat = v % 64 + 0x80 := toNat_ofNat (by omega)
    split
    · -- two bytes
      next h1 h2 =>
      have hlead : (UInt8.ofNat (v / 64 % 0x20 + 0xC0)).toNat = v / 64 + 0xC0 := by
        rw [toNat_ofNat (by omega), Nat.mod_eq_of_lt (by omega)]
      rw [List.cons_append, List.singleton_append,
        decodeFrom_begin (by omega) (hlead ▸ pending?_two (by omega) (by omega)),
        decodeFrom_complete rfl (by simp only [hlast]; omega) (by simp only [hlast]; omega), hlast]
      simp only [Nat.add_sub_cancel]
      rw [show 64 * (v / 64) + v % 64 = v by omega, hchar]
    · have hmid : (UInt8.ofNat (v / 64 % 0x40 + 0x80)).toNat = v / 64 % 64 + 0x80 :=
        toNat_ofNat (by omega)
      split
      · -- three bytes; the leading one bounds the second one
        next h1 h2 h3 =>
        have hlead : (UInt8.ofNat (v / 4096 % 0x10 + 0xE0)).toNat = v / 4096 + 0xE0 := by
          rw [toNat_ofNat (by omega), Nat.mod_eq_of_lt (by omega)]
        obtain ⟨low, high, hp, hlow, hhigh⟩ := pending?_three (v := v) (by omega) (by omega)
        rw [List.cons_append, List.cons_append, List.singleton_append,
          decodeFrom_begin (by omega) (hlead ▸ hp),
          decodeFrom_continue (by simp) (by rw [hmid]; exact hlow) (by rw [hmid]; exact hhigh),
          decodeFrom_complete rfl (by simp only [hlast]; omega) (by simp only [hlast]; omega),
          hlast, hmid]
        simp only [Nat.add_sub_cancel]
        rw [show 64 * (64 * (v / 4096) + v / 64 % 64) + v % 64 = v by omega, hchar]
      · -- four bytes, likewise
        next h1 h2 h3 =>
        have hmid' : (UInt8.ofNat (v / 4096 % 0x40 + 0x80)).toNat = v / 4096 % 64 + 0x80 :=
          toNat_ofNat (by omega)
        have hlead : (UInt8.ofNat (v / 262144 % 0x08 + 0xF0)).toNat = v / 262144 + 0xF0 := by
          rw [toNat_ofNat (by omega), Nat.mod_eq_of_lt (by omega)]
        obtain ⟨low, high, hp, hlow, hhigh⟩ := pending?_four (v := v) (by omega) (by omega)
        rw [List.cons_append, List.cons_append, List.cons_append, List.singleton_append,
          decodeFrom_begin (by omega) (hlead ▸ hp),
          decodeFrom_continue (by simp) (by rw [hmid']; exact hlow) (by rw [hmid']; exact hhigh),
          decodeFrom_continue (by simp) (by simp only [hmid]; omega) (by simp only [hmid]; omega),
          decodeFrom_complete rfl (by simp only [hlast]; omega) (by simp only [hlast]; omega),
          hlast, hmid, hmid']
        simp only [Nat.add_sub_cancel]
        rw [show 64 * (64 * (64 * (v / 262144) + v / 4096 % 64) + v / 64 % 64) + v % 64 = v by
          omega, hchar]

/-- **The bytes of a text stand for it.** -/
theorem decode_encode (s : String) : decode (encode s) = s := by
  have hchars : ∀ cs : List Char, decodeFrom none (cs.flatMap String.utf8EncodeChar) = cs := by
    intro cs
    induction cs with
    | nil => rfl
    | cons c cs ih => rw [List.flatMap_cons, decodeFrom_encodeChar, ih]
  rw [← String.toList_inj, toList_decode, encode, hchars]

/-! ### Places between characters -/

/-- A text has as many bytes as its size says. -/
theorem length_encode (s : String) : (encode s).length = s.utf8ByteSize := by
  rw [String.utf8ByteSize, ← String.utf8Encode_toList, List.utf8Encode, List.size_toByteArray]
  rfl

/-- From one place between characters to another stands a piece of the text. -/
theorem exists_between {s : String} {m n : Nat} (hm : String.Pos.Raw.IsValid s ⟨m⟩)
    (hn : String.Pos.Raw.IsValid s ⟨n⟩) (hle : m ≤ n) :
    ∃ before mid after, s = before ++ mid ++ after ∧ before.utf8ByteSize = m
      ∧ (before ++ mid).utf8ByteSize = n := by
  obtain ⟨a, b, hab, ha⟩ := String.Pos.Raw.isValid_iff_exists_append.mp hm
  obtain ⟨c, d, hcd, hc⟩ := String.Pos.Raw.isValid_iff_exists_append.mp hn
  have ha : a.utf8ByteSize = m := (String.Pos.Raw.mk.inj ha).symm
  have hc : c.utf8ByteSize = n := (String.Pos.Raw.mk.inj hc).symm
  have hpa : a.toList <+: s.toList := ⟨b.toList, by rw [hab, String.toList_append]⟩
  have hpc : c.toList <+: s.toList := ⟨d.toList, by rw [hcd, String.toList_append]⟩
  obtain ⟨e, he⟩ | ⟨e, he⟩ := List.prefix_or_prefix_of_prefix hpa hpc
  · have hcut : c = a ++ String.ofList e := by
      rw [← String.toList_inj, String.toList_append, String.toList_ofList, he]
    exact ⟨a, String.ofList e, d, by rw [← hcut, hcd], ha, by rw [← hcut, hc]⟩
  · -- the second place is not before the first, so they are the same
    have hcut : a = c ++ String.ofList e := by
      rw [← String.toList_inj, String.toList_append, String.toList_ofList, he]
    have hsize : a.utf8ByteSize = c.utf8ByteSize + (String.ofList e).utf8ByteSize := by
      rw [hcut, String.utf8ByteSize_append]
    have hmn : m = n := by omega
    exact ⟨a, "", b, by rw [String.append_empty, hab], ha, by rw [String.append_empty, ha, hmn]⟩

end Utf8
end Text
end ClassLineage
