import Mathlib.Data.List.Induction
import DirectoryAccess.Proofs.Ber.Header
import DirectoryAccess.Proofs.Ber.Integer

/-!
# What the octets of a number stand for

The octets of a number are digits with base 256. They stand for what the digits stand
for, less `256 ^ n` for `n` octets if the first bit is set (`twosComplement_eq`). A
32-bit number is read from one to eight octets that stand for it, and from no others
(`decodeInt32_eq_ok_iff`).
-/

namespace DirectoryAccess.Ber

open Octets (ofBigEndian ofBigEndian_lt)

variable {octets : Octets}

/-- Digits go below the number in front of them. -/
theorem foldl_digits (v : Int) (octets : Octets) :
    octets.foldl (fun v b => v * 256 + (b.toNat : Int)) v =
      v * 256 ^ octets.length + ofBigEndian octets := by
  induction octets using List.reverseRecOn with
  | nil => simp [ofBigEndian]
  | append_singleton octets b ih =>
      rw [List.foldl_append, ih, List.foldl_cons, List.foldl_nil,
        Octets.ofBigEndian_append_singleton, List.length_append, List.length_singleton,
        Int.pow_succ, Int.natCast_add, Int.natCast_mul, ← Int.mul_assoc, Int.add_mul]
      exact Int.add_assoc ..

/-- A first octet is the highest digit of the number. -/
theorem ofBigEndian_cons (b : UInt8) (octets : Octets) :
    ofBigEndian (b :: octets) = b.toNat * 256 ^ octets.length + ofBigEndian octets := by
  have hall := foldl_digits 0 (b :: octets)
  rw [List.foldl_cons, foldl_digits, Int.zero_mul, Int.zero_mul, Int.zero_add, Int.zero_add] at hall
  apply Int.ofNat_inj.mp
  rw [← hall, Int.natCast_add, Int.natCast_mul, Int.natCast_pow]
  rfl

/-- The number that octets stand for in two's complement. -/
def signed (octets : Octets) : Int :=
  if 2 * ofBigEndian octets < 256 ^ octets.length then ofBigEndian octets
  else ofBigEndian octets - 256 ^ octets.length

/-- The first bit of octets is set if they are digits of a number of the upper half. -/
theorem lt_signBit_iff (b : UInt8) (octets : Octets) :
    b < 0x80 ↔ 2 * ofBigEndian (b :: octets) < 256 ^ (b :: octets).length := by
  have hrest := ofBigEndian_lt octets
  rw [UInt8.lt_iff_toNat_lt, ofBigEndian_cons, List.length_cons, Nat.pow_succ]
  change b.toNat < 128 ↔ _
  constructor
  · intro h
    have hle : b.toNat * 256 ^ octets.length ≤ 127 * 256 ^ octets.length :=
      Nat.mul_le_mul_right _ (Nat.le_of_lt_succ h)
    omega
  · intro h
    by_contra hge
    have hle : 128 * 256 ^ octets.length ≤ b.toNat * 256 ^ octets.length :=
      Nat.mul_le_mul_right _ (Nat.le_of_not_lt hge)
    omega

/-- What is read from octets is what they stand for in two's complement. -/
theorem twosComplement_eq (octets : Octets) : twosComplement octets = signed octets := by
  cases octets with
  | nil => rfl
  | cons b octets =>
      simp only [twosComplement, foldl_digits, signed, ← lt_signBit_iff]
      split <;> omega

/-! ## 32-bit numbers -/

/-- Octets that a 32-bit number is read from. -/
structure HoldsInt32 (octets : Octets) (v : Int32) : Prop where
  /-- There is an octet. -/
  length_pos : 0 < octets.length
  /-- There are no more octets than a number of 64 bits has. -/
  length_le : octets.length ≤ 8
  /-- The number is what the octets stand for. -/
  toInt_eq : v.toInt = signed octets

/-- A 32-bit number is made of the numbers that it can hold. -/
theorem toInt32_eq_ok_iff {n : Int} {v : Int32} : toInt32 n = .ok v ↔ v.toInt = n := by
  refine ⟨toInt_of_toInt32, ?_⟩
  rintro rfl
  exact toInt32_toInt v

/-- A 32-bit number is read from the octets that hold it. -/
theorem decodeInt32_eq_ok_iff {v : Int32} :
    decodeInt32 octets = .ok v ↔ HoldsInt32 octets v := by
  simp only [decodeInt32, bind_eq_ok_iff, decodeInteger_eq_ok_iff, toInt32_eq_ok_iff,
    twosComplement_eq]
  constructor
  · rintro ⟨n, ⟨hpos, hle, rfl⟩, hv⟩
    exact ⟨hpos, hle, hv⟩
  · rintro ⟨hpos, hle, hv⟩
    exact ⟨_, ⟨hpos, hle, rfl⟩, hv⟩

end DirectoryAccess.Ber
