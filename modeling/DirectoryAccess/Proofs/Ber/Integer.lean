import Mathlib.Algebra.Group.Int.Defs
import DirectoryAccess.Ber.Integer
import DirectoryAccess.Proofs.Answer

/-!
# Written numbers read back

The octets of a number stand for it (`twosComplement_encodeInteger`), and a number
of `k` octets' range takes no more than `k` of them. A 32-bit number therefore
takes at most four octets and always reads back (`decodeInt32_encodeInteger`). No
octets that stand for a number are fewer than those that it is written as
(`length_encodeInteger_twosComplement_le`).
-/

namespace DirectoryAccess.Ber

/-- A further octet goes below the number that the octets in front of it stand for. -/
theorem twosComplement_append_singleton {octets : Octets} (h : octets ≠ []) (b : UInt8) :
    twosComplement (octets ++ [b]) = twosComplement octets * 256 + (b.toNat : Int) := by
  cases octets with
  | nil => exact absurd rfl h
  | cons first rest =>
      simp only [List.cons_append, twosComplement, List.foldl_cons, List.foldl_append,
        List.foldl_nil]

/-- Each number takes an octet. -/
theorem encodeInteger_ne_nil (v : Int) : encodeInteger v ≠ [] := by
  rw [encodeInteger]
  split
  · exact List.cons_ne_nil _ _
  · exact List.append_ne_nil_of_right_ne_nil _ (List.cons_ne_nil _ _)

/-- The octets of a number stand for that number. -/
theorem twosComplement_encodeInteger (v : Int) : twosComplement (encodeInteger v) = v := by
  have hlow (v : Int) : ((UInt8.ofNat (v % 256).toNat).toNat : Int) = v % 256 := by
    rw [UInt8.toNat_ofNat_of_lt' (show (v % 256).toNat < 256 by omega)]
    omega
  induction v using encodeInteger.induct with
  | case1 v h =>
      rw [encodeInteger, if_pos h]
      have hsign : UInt8.ofNat (v % 256).toNat < 0x80 ↔ 0 ≤ v := by
        rw [UInt8.lt_iff_toNat_lt, ← Int.ofNat_lt, hlow v]
        change v % 256 < 128 ↔ 0 ≤ v
        omega
      simp only [twosComplement, List.foldl_cons, List.foldl_nil, hlow v, hsign]
      split <;> omega
  | case2 v h ih =>
      rw [encodeInteger, if_neg h, twosComplement_append_singleton (encodeInteger_ne_nil _), ih,
        hlow v]
      omega

/-- A number takes no more octets than are needed to hold it and its sign. -/
theorem length_encodeInteger_le {v : Int} {k : Nat} (hl : -(128 * 256 ^ k) ≤ v)
    (hh : v < 128 * 256 ^ k) : (encodeInteger v).length ≤ k + 1 := by
  induction v using encodeInteger.induct generalizing k with
  | case1 v h =>
      rw [encodeInteger, if_pos h, List.length_singleton]
      omega
  | case2 v h ih =>
      rw [encodeInteger, if_neg h, List.length_append, List.length_singleton]
      cases k with
      | zero => omega
      | succ k =>
          rw [Int.pow_succ] at hl hh
          exact Nat.succ_le_succ (ih (by omega) (by omega))

/-- A number of up to 64 bits is read back from its octets. -/
theorem decodeInteger_encodeInteger {v : Int} (hl : -2 ^ 63 ≤ v) (hh : v < 2 ^ 63) :
    decodeInteger (encodeInteger v) = .ok v := by
  have hlen : (encodeInteger v).length ≤ 8 :=
    length_encodeInteger_le (k := 7) (by omega) (by omega)
  have hne : (encodeInteger v).isEmpty = false := by
    rw [List.isEmpty_eq_false_iff]
    exact encodeInteger_ne_nil v
  simp only [decodeInteger, hne, Bool.false_eq_true, if_false, if_neg (Nat.not_lt.mpr hlen),
    twosComplement_encodeInteger]

/-- A 32-bit word is the word of its own number. -/
theorem toInt32_toInt (v : Int32) : toInt32 v.toInt = .ok v := by
  have hl := Int32.le_toInt v
  have hh := Int32.toInt_lt v
  rw [toInt32, if_pos (by omega), Int32.ofInt_toInt]

/-- A 32-bit number is read back from its octets. -/
theorem decodeInt32_encodeInteger (v : Int32) : decodeInt32 (encodeInteger v.toInt) = .ok v := by
  have hl := Int32.le_toInt v
  have hh := Int32.toInt_lt v
  rw [decodeInt32, decodeInteger_encodeInteger (by omega) (by omega), ok_bind, toInt32_toInt]

/-- The first octet stands for a number of eight bits. -/
theorem firstOctet_bounds (b : UInt8) :
    -128 ≤ (if b < 0x80 then (0 : Int) else -1) * 256 + (b.toNat : Int) ∧
      (if b < 0x80 then (0 : Int) else -1) * 256 + (b.toNat : Int) < 128 := by
  have hb := b.toNat_lt
  have hsign : b < 0x80 ↔ b.toNat < 128 := UInt8.lt_iff_toNat_lt
  by_cases hlow : b < 0x80
  · have hn := hsign.mp hlow
    rw [if_pos hlow]
    omega
  · have hn : 128 ≤ b.toNat := Nat.le_of_not_lt fun hlt => hlow (hsign.mpr hlt)
    rw [if_neg hlow]
    omega

/-- Further octets go below a number, which stays in the range that their count gives it. -/
theorem foldl_octets_bounds {v : Int} {m : Nat} (octets : Octets) (hl : -(128 * 256 ^ m) ≤ v)
    (hh : v < 128 * 256 ^ m) :
    -(128 * 256 ^ (m + octets.length)) ≤ octets.foldl (fun v b => v * 256 + (b.toNat : Int)) v ∧
      octets.foldl (fun v b => v * 256 + (b.toNat : Int)) v < 128 * 256 ^ (m + octets.length) := by
  induction octets generalizing v m with
  | nil => exact ⟨hl, hh⟩
  | cons b octets ih =>
      have hb := b.toNat_lt
      rw [List.foldl_cons, List.length_cons, Nat.add_comm octets.length 1, ← Nat.add_assoc]
      apply ih
      · rw [Int.pow_succ]
        omega
      · rw [Int.pow_succ]
        omega

/-- The number that some octets stand for takes no more octets than these. -/
theorem length_encodeInteger_twosComplement_le {octets : Octets} (h : octets ≠ []) :
    (encodeInteger (twosComplement octets)).length ≤ octets.length := by
  cases octets with
  | nil => exact absurd rfl h
  | cons b octets =>
      have hfirst := firstOctet_bounds b
      obtain ⟨hl, hh⟩ := foldl_octets_bounds (m := 0) octets hfirst.1 hfirst.2
      rw [Nat.zero_add] at hl hh
      exact length_encodeInteger_le hl hh

/-- A 32-bit word has the value of the number that it holds. -/
theorem toInt_of_toInt32 {v : Int} {w : Int32} (h : toInt32 v = .ok w) : w.toInt = v := by
  rw [toInt32] at h
  split at h
  · rename_i hrange
    obtain rfl := Except.ok.inj h
    exact Int32.toInt_ofInt_of_le (by omega) (by omega)
  · cases h

/-- A number is read from one to eight octets, as what they stand for. -/
theorem decodeInteger_eq_ok_iff {octets : Octets} {v : Int} : decodeInteger octets = .ok v ↔
    0 < octets.length ∧ octets.length ≤ 8 ∧ v = twosComplement octets := by
  rw [decodeInteger]
  cases octets with
  | nil => exact ⟨nofun, nofun⟩
  | cons b octets =>
      rw [List.isEmpty_cons, if_neg Bool.false_ne_true]
      by_cases hwide : 8 < (b :: octets).length
      · rw [if_pos hwide]
        exact ⟨nofun, fun h => absurd h.2.1 (Nat.not_le.mpr hwide)⟩
      · rw [if_neg hwide, Except.ok.injEq, eq_comm]
        exact ⟨fun h => ⟨Nat.succ_pos _, Nat.not_lt.mp hwide, h⟩, fun h => h.2.2⟩

/-- A 32-bit number takes no more octets than it was read from. -/
theorem length_encodeInteger_le_of_decodeInt32 {octets : Octets} {v : Int32}
    (h : decodeInt32 octets = .ok v) : (encodeInteger v.toInt).length ≤ octets.length := by
  obtain ⟨n, hn, hv⟩ := bind_eq_ok_iff.mp h
  obtain ⟨hpos, -, rfl⟩ := decodeInteger_eq_ok_iff.mp hn
  rw [toInt_of_toInt32 hv]
  exact length_encodeInteger_twosComplement_le (List.ne_nil_of_length_pos hpos)

end DirectoryAccess.Ber
