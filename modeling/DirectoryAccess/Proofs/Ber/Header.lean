import Mathlib.Algebra.Group.Nat.Defs
import DirectoryAccess.Ber.Element

/-!
# Written headers read back

A length below `2 ^ 32` takes at most four octets behind the one that counts them,
which is what the reader accepts. A header is therefore read back from what an
element is written as, whatever follows the element, as long as its type takes one
octet and its value is shorter than `2 ^ 32` octets. The header of a longer value is
refused.
-/

namespace DirectoryAccess

namespace Octets

/-- The shortest form of a number has an octet. -/
theorem length_bigEndian_pos (n : Nat) : 0 < (bigEndian n).length := by
  rw [bigEndian]
  split
  · exact Nat.one_pos
  · rw [List.length_append, List.length_singleton]
    exact Nat.succ_pos _

/-- The shortest form of a number has no more octets than are needed to hold it. -/
theorem length_bigEndian_le {n k : Nat} (hk : 0 < k) (hn : n < 256 ^ k) :
    (bigEndian n).length ≤ k := by
  induction n using bigEndian.induct generalizing k with
  | case1 n h =>
      rw [bigEndian, if_pos h]
      exact hk
  | case2 n h ih =>
      rw [bigEndian, if_neg h, List.length_append, List.length_singleton]
      obtain ⟨j, rfl⟩ : ∃ j, k = j + 1 := ⟨k - 1, by omega⟩
      have hj : 0 < j := by
        rcases Nat.eq_zero_or_pos j with rfl | hj
        · omega
        · exact hj
      have hq : n / 256 < 256 ^ j := by
        rw [Nat.div_lt_iff_lt_mul (by decide), ← Nat.pow_succ]
        exact hn
      exact Nat.succ_le_succ (ih hj hq)

/-- Further digits go below a number, which stays in the range that their count gives it. -/
theorem foldl_lt (octets : Octets) {n k : Nat} (hn : n < 256 ^ k) :
    octets.foldl (fun n b => n * 256 + b.toNat) n < 256 ^ (k + octets.length) := by
  induction octets generalizing n k with
  | nil => exact hn
  | cons b octets ih =>
      have hb := b.toNat_lt
      rw [List.foldl_cons, List.length_cons, Nat.add_comm octets.length 1, ← Nat.add_assoc]
      apply ih
      rw [Nat.pow_succ]
      omega

/-- Octets hold no number that takes more of them. -/
theorem ofBigEndian_lt (octets : Octets) : ofBigEndian octets < 256 ^ octets.length := by
  have h := foldl_lt octets (n := 0) (k := 0) (Nat.one_pos)
  rwa [Nat.zero_add] at h

end Octets

namespace Ber

namespace Length

/-- A length announces the number that it was made for. -/
@[simp] theorem toNat_ofNat (n : Nat) : (ofNat n).toNat = n := by
  rw [ofNat]
  split
  · rename_i h
    exact UInt8.toNat_ofNat_of_lt' (show n < 256 by omega)
  · rfl

/-- The octet that counts the octets of a long form keeps the count in its low bits. -/
theorem count_octet : ∀ k < 128, ¬ (0x80 ||| UInt8.ofNat k) < 0x80 ∧
    ((0x80 ||| UInt8.ofNat k) &&& 0x7F).toNat = k := by
  decide

/-- A length is read back from its octets, whatever follows them. -/
theorem decode_encode_append {n : Nat} (hn : n < 2 ^ 32) (rest : Octets) :
    decode ((ofNat n).encode ++ rest) = .ok (ofNat n, (ofNat n).encode.length) := by
  by_cases h : n < 128
  · have hb : UInt8.ofNat n < 0x80 := by
      rw [UInt8.lt_iff_toNat_lt, UInt8.toNat_ofNat_of_lt' (show n < 256 by omega)]
      exact h
    simp only [ofNat, if_pos h, encode, List.cons_append, List.nil_append, decode, if_pos hb,
      List.length_singleton]
  · have hpos := Octets.length_bigEndian_pos n
    have hle : (Octets.bigEndian n).length ≤ maxOctets :=
      Octets.length_bigEndian_le (by decide) hn
    obtain ⟨hlong, hcount⟩ := count_octet (Octets.bigEndian n).length
      (Nat.lt_of_le_of_lt hle (by decide))
    simp only [ofNat, if_neg h, encode, List.cons_append, decode, if_neg hlong, hcount,
      List.take_left]
    rw [if_neg (by omega), if_neg (Nat.not_lt.mpr hle), if_neg (Nat.lt_irrefl _),
      Octets.ofBigEndian_bigEndian, List.length_cons, Nat.add_comm]

/-- A length of `2 ^ 32` or more takes more octets than are read. -/
theorem decode_encode_append_of_wide {n : Nat} (hl : 2 ^ 32 ≤ n) (hh : n < 2 ^ 64)
    (rest : Octets) : decode ((ofNat n).encode ++ rest) =
      .error (Fault.wideLength (Octets.bigEndian n).length) := by
  have hwide : maxOctets < (Octets.bigEndian n).length := by
    have hlt := Octets.ofBigEndian_lt (Octets.bigEndian n)
    rw [Octets.ofBigEndian_bigEndian] at hlt
    refine Nat.lt_of_not_le fun hle => ?_
    have hpow : 256 ^ (Octets.bigEndian n).length ≤ 256 ^ maxOctets :=
      Nat.pow_le_pow_right (by decide) hle
    have hmax : 256 ^ maxOctets = 2 ^ 32 := rfl
    omega
  have hle : (Octets.bigEndian n).length ≤ 8 := Octets.length_bigEndian_le (by decide) hh
  obtain ⟨hlong, hcount⟩ := count_octet (Octets.bigEndian n).length
    (Nat.lt_of_le_of_lt hle (by decide))
  simp only [ofNat, if_neg (show ¬ n < 128 by omega), encode, List.cons_append, decode,
    if_neg hlong, hcount]
  rw [if_neg (by omega), if_pos hwide]

end Length

/-- A header is read back from what its element is written as, whatever follows the element. -/
theorem Header.decode_encode_append {element : Element} (ht : isMultiOctet element.tag = false)
    (hs : element.value.length < 2 ^ 32) (rest : Octets) :
    Header.decode (element.encode ++ rest) =
      .ok ⟨element.tag, 1 + (Length.ofNat element.value.length).encode.length,
        element.value.length⟩ := by
  simp only [Element.encode, List.cons_append, List.append_assoc, Header.decode, ht,
    Bool.false_eq_true, if_false, Length.decode_encode_append hs, Length.toNat_ofNat,
    List.drop_left, List.take_left, Nat.lt_irrefl]

/-- The header of an element whose value takes `2 ^ 32` octets or more is not read. -/
theorem Header.decode_encode_append_of_wide {element : Element}
    (hl : 2 ^ 32 ≤ element.value.length) (hh : element.value.length < 2 ^ 64) (rest : Octets) :
    ∃ failure, Header.decode (element.encode ++ rest) = .error failure := by
  simp only [Element.encode, List.cons_append, List.append_assoc, Header.decode,
    Length.decode_encode_append_of_wide hl hh]
  split
  · exact ⟨_, rfl⟩
  · exact ⟨_, rfl⟩

end Ber

end DirectoryAccess
