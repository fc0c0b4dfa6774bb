import Mathlib.Data.List.Induction
import DirectoryAccess.Proofs.Ber.Header

/-!
# Definite lengths and the headers made with them

A definite length is an octet below 128, or an octet that counts the digits behind it
(`Length.WrittenAs`). Reading accepts exactly the definite lengths of at most five
octets (`Length.decode_eq_ok_iff`), and a header exactly where such a length stands
between a type of one octet and a value as long as it says (`Header.decode_eq_ok_iff`).
Among the definite lengths of one number, that which is written is the only shortest
(`Length.shortest_iff`).
-/

namespace DirectoryAccess

namespace Octets

/-- A number has the fewest octets of all that hold it. -/
theorem length_bigEndian_ofBigEndian_le {octets : Octets} (h : octets ≠ []) :
    (bigEndian (ofBigEndian octets)).length ≤ octets.length :=
  length_bigEndian_le (List.length_pos_iff.mpr h) (ofBigEndian_lt octets)

/-- A greater number does not take fewer octets. -/
theorem length_bigEndian_mono {m n : Nat} (h : m ≤ n) :
    (bigEndian m).length ≤ (bigEndian n).length := by
  refine length_bigEndian_le (length_bigEndian_pos n) (Nat.lt_of_le_of_lt h ?_)
  have hlt := ofBigEndian_lt (bigEndian n)
  rwa [ofBigEndian_bigEndian] at hlt

/-- Octets that are as few as the number that they hold has are those of this number. -/
theorem bigEndian_ofBigEndian {octets : Octets}
    (h : octets.length = (bigEndian (ofBigEndian octets)).length) :
    bigEndian (ofBigEndian octets) = octets := by
  induction octets using List.reverseRecOn with
  | nil => exact absurd h (Nat.ne_of_lt (length_bigEndian_pos _))
  | append_singleton octets b ih =>
      have hb := b.toNat_lt
      rw [ofBigEndian_append_singleton] at h ⊢
      by_cases hsmall : ofBigEndian octets * 256 + b.toNat < 256
      · rw [bigEndian, if_pos hsmall] at h ⊢
        rw [List.length_append, List.length_singleton, List.length_singleton] at h
        obtain rfl : octets = [] := List.length_eq_zero_iff.mp (by omega)
        have hlow : ofBigEndian [] * 256 + b.toNat = b.toNat := by
          rw [ofBigEndian, List.foldl_nil, Nat.zero_mul, Nat.zero_add]
        rw [hlow, UInt8.ofNat_toNat, List.nil_append]
      · have hhigh : (ofBigEndian octets * 256 + b.toNat) / 256 = ofBigEndian octets := by omega
        have hlow : (ofBigEndian octets * 256 + b.toNat) % 256 = b.toNat := by omega
        rw [bigEndian, if_neg hsmall, hhigh, hlow, UInt8.ofNat_toNat] at h ⊢
        rw [List.length_append, List.length_append] at h
        rw [ih (Nat.add_right_cancel h)]

end Octets

namespace Ber

namespace Length

/-! ## Definite lengths -/

/-- Octets that a length can be written as, not only as few as possible. -/
inductive WrittenAs : Length → Octets → Prop
  /-- One octet that is the length itself. -/
  | short (b : UInt8) (h : b < 0x80) : WrittenAs (short b) [b]
  /-- An octet with the high bit set that counts the digits, and then the digits. -/
  | long (digits : Octets) (hpos : 0 < digits.length) (hlt : digits.length < 127) :
      WrittenAs (long (Octets.ofBigEndian digits))
        ((0x80 ||| UInt8.ofNat digits.length) :: digits)

/-- Octets that are a definite length of the given number. -/
def Definite (field : Octets) (n : Nat) : Prop :=
  ∃ length : Length, length.WrittenAs field ∧ length.toNat = n

/-- A definite length that no other of the same number is shorter than. -/
structure Shortest (field : Octets) (n : Nat) : Prop where
  /-- The octets are a definite length of the number. -/
  definite : Definite field n
  /-- No octets that are one are fewer. -/
  length_le : ∀ other, Definite other n → field.length ≤ other.length

variable {field octets : Octets} {length : Length} {n width : Nat}

/-- An octet with the high bit set is the count in its low bits with that bit. -/
theorem octet_count (b : UInt8) (h : ¬ b < 0x80) :
    0x80 ||| UInt8.ofNat (b &&& 0x7F).toNat = b := by
  have hall : ∀ k < 256, ¬ UInt8.ofNat k < 0x80 →
      0x80 ||| UInt8.ofNat (UInt8.ofNat k &&& 0x7F).toNat = UInt8.ofNat k := by
    decide +kernel
  have hb := hall b.toNat b.toNat_lt
  rw [UInt8.ofNat_toNat] at hb
  exact hb h

/-- A length is read exactly where the octets begin with a definite one that takes no more octets
than are accepted. -/
theorem decode_eq_ok_iff : decode octets = .ok (length, width) ↔
    ∃ field rest, octets = field ++ rest ∧ length.WrittenAs field ∧
      field.length = width ∧ width ≤ 1 + maxOctets := by
  constructor
  · intro h
    cases octets with
    | nil => cases h
    | cons b digits =>
        simp only [decode] at h
        by_cases hshort : b < 0x80
        · rw [if_pos hshort] at h
          cases h
          exact ⟨[b], digits, rfl, .short b hshort, rfl, by decide⟩
        rw [if_neg hshort] at h
        split at h
        · cases h
        split at h
        · cases h
        split at h
        · cases h
        rename_i hzero hwide hcut
        cases h
        have hcount : (digits.take (b &&& 0x7F).toNat).length = (b &&& 0x7F).toNat := by
          rw [List.length_take] at hcut ⊢
          omega
        have hmax : maxOctets < 127 := by decide
        have hwritten := WrittenAs.long (digits.take (b &&& 0x7F).toNat) (by omega) (by omega)
        rw [hcount, octet_count b hshort] at hwritten
        refine ⟨_, digits.drop (b &&& 0x7F).toNat, ?_, hwritten, ?_, by omega⟩
        · rw [List.cons_append, List.take_append_drop]
        · rw [List.length_cons, hcount, Nat.add_comm]
  · rintro ⟨field, rest, rfl, hwritten, rfl, hle⟩
    cases hwritten with
    | short b hb => simp only [List.cons_append, decode, if_pos hb, List.length_singleton]
    | long digits hpos hlt =>
        obtain ⟨hlong, hcount⟩ := count_octet digits.length (by omega)
        rw [List.length_cons] at hle
        simp only [List.cons_append, decode, if_neg hlong, hcount, List.take_left]
        rw [if_neg (by omega), if_neg (by omega), if_neg (Nat.lt_irrefl _), List.length_cons,
          Nat.add_comm]

/-- A length is written as one octet, or as an octet that counts those of the number and these. -/
theorem length_encode_ofNat (n : Nat) : (ofNat n).encode.length =
    if n < 128 then 1 else 1 + (Octets.bigEndian n).length := by
  rw [ofNat]
  split
  · rfl
  · rw [encode, List.length_cons, Nat.add_comm]

/-- A greater length does not take fewer octets. -/
theorem length_encode_mono {m n : Nat} (h : m ≤ n) :
    (ofNat m).encode.length ≤ (ofNat n).encode.length := by
  have hdigits := Octets.length_bigEndian_mono h
  rw [length_encode_ofNat, length_encode_ofNat]
  split <;> split <;> omega

/-- A length is written with no more octets than any definite length of its number has. -/
theorem length_encode_le_of_definite (h : Definite field n) :
    (ofNat n).encode.length ≤ field.length := by
  obtain ⟨length, hwritten, rfl⟩ := h
  rw [length_encode_ofNat]
  cases hwritten with
  | short b hb =>
      have hlt : b.toNat < 128 := UInt8.lt_iff_toNat_lt.mp hb
      rw [toNat, if_pos hlt]
      exact Nat.le_refl 1
  | long digits hpos hlt =>
      have hdigits := Octets.length_bigEndian_ofBigEndian_le (List.ne_nil_of_length_pos hpos)
      rw [toNat, List.length_cons]
      split <;> omega

/-- A definite length with no more octets than the one that is written is that one. -/
theorem eq_encode_of_definite (h : Definite field n)
    (hle : field.length ≤ (ofNat n).encode.length) : field = (ofNat n).encode := by
  obtain ⟨length, hwritten, rfl⟩ := h
  cases hwritten with
  | short b hb =>
      have hlt : b.toNat < 128 := UInt8.lt_iff_toNat_lt.mp hb
      rw [toNat, ofNat, if_pos hlt, encode, UInt8.ofNat_toNat]
  | long digits hpos hlt =>
      have hdigits := Octets.length_bigEndian_ofBigEndian_le (List.ne_nil_of_length_pos hpos)
      rw [length_encode_ofNat, toNat, List.length_cons] at hle
      by_cases hsmall : Octets.ofBigEndian digits < 128
      · rw [if_pos hsmall] at hle
        omega
      · rw [if_neg hsmall] at hle
        rw [toNat, ofNat, if_neg hsmall, encode, Octets.bigEndian_ofBigEndian (by omega)]

/-- What a length is written as is a definite length of its number. -/
theorem definite_encode (hn : n < 2 ^ 64) : Definite (ofNat n).encode n := by
  refine ⟨ofNat n, ?_, toNat_ofNat n⟩
  rw [ofNat]
  split
  · rename_i h
    refine .short _ ?_
    rw [UInt8.lt_iff_toNat_lt, UInt8.toNat_ofNat_of_lt' (show n < 256 by omega)]
    exact h
  · have hle : (Octets.bigEndian n).length ≤ 8 := Octets.length_bigEndian_le (by decide) hn
    have hwritten := WrittenAs.long (Octets.bigEndian n) (Octets.length_bigEndian_pos n) (by omega)
    rwa [Octets.ofBigEndian_bigEndian] at hwritten

/-- Among the definite lengths of one number, that which is written is the only shortest. -/
theorem shortest_iff (hn : n < 2 ^ 64) : Shortest field n ↔ field = (ofNat n).encode := by
  constructor
  · intro h
    exact eq_encode_of_definite h.definite (h.length_le _ (definite_encode hn))
  · rintro rfl
    exact ⟨definite_encode hn, fun _ => length_encode_le_of_definite⟩

/-- A definite length of at most five octets is less than `2 ^ 32`. -/
theorem lt_of_definite (h : Definite field n) (hle : field.length ≤ 1 + maxOctets) :
    n < 2 ^ 32 := by
  obtain ⟨length, hwritten, rfl⟩ := h
  cases hwritten with
  | short b hb =>
      have hlt := b.toNat_lt
      rw [toNat]
      omega
  | long digits hpos hlt =>
      rw [List.length_cons] at hle
      have hpow : 256 ^ digits.length ≤ 256 ^ maxOctets :=
        Nat.pow_le_pow_right (by decide) (by omega)
      exact Nat.lt_of_lt_of_le (Octets.ofBigEndian_lt digits) hpow

end Length

/-! ## Headers -/

/-- A header is read exactly where the octets are a type of one octet, a definite length that takes
no more octets than are accepted, a value of that length, and whatever follows. -/
theorem Header.decode_eq_ok_iff {octets : Octets} {head : Header} : decode octets = .ok head ↔
    ∃ field value rest, octets = head.tag :: (field ++ (value ++ rest)) ∧
      isMultiOctet head.tag = false ∧ Length.Definite field value.length ∧
      field.length ≤ 1 + Length.maxOctets ∧
      head.width = 1 + field.length ∧ head.size = value.length := by
  constructor
  · intro h
    cases octets with
    | nil => cases h
    | cons tag octets =>
        simp only [decode] at h
        split at h
        · cases h
        rename_i htag
        split at h
        · cases h
        rename_i length width hlength
        split at h
        · cases h
        rename_i hpresent
        cases h
        obtain ⟨field, rest, rfl, hwritten, rfl, hle⟩ := Length.decode_eq_ok_iff.mp hlength
        rw [List.drop_left] at hpresent
        have hvalue : (rest.take length.toNat).length = length.toNat := by
          rw [List.length_take] at hpresent ⊢
          omega
        refine ⟨field, rest.take length.toNat, rest.drop length.toNat, ?_,
          Bool.not_eq_true _ ▸ htag, ⟨length, hwritten, hvalue.symm⟩, hle, rfl, hvalue.symm⟩
        rw [List.take_append_drop]
  · rintro ⟨field, value, rest, rfl, htag, ⟨length, hwritten, hvalue⟩, hle, hwidth, hsize⟩
    have hlength : Length.decode (field ++ (value ++ rest)) = .ok (length, field.length) :=
      Length.decode_eq_ok_iff.mpr ⟨field, _, rfl, hwritten, rfl, hle⟩
    simp only [decode, htag, Bool.false_eq_true, if_false, hlength, List.drop_left, hvalue,
      List.take_left, Nat.lt_irrefl]
    rw [← hwidth, ← hsize]

/-- A header names the first of the octets as the type. -/
theorem Header.head?_of_decode {octets : Octets} {head : Header} (h : decode octets = .ok head) :
    octets.head? = some head.tag := by
  obtain ⟨field, value, rest, rfl, -⟩ := decode_eq_ok_iff.mp h
  exact List.head?_cons

end Ber

end DirectoryAccess
