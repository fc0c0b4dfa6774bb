import DirectoryAccess.Proofs.Ber.Reader
import DirectoryAccess.Proofs.Ber.TwosComplement

/-!
# Numbers in the fewest octets

The first octet of a number is needed unless it only repeats the sign that the second
one has (`IsMinimal`). Octets that need all of theirs are what their number is written
as (`encodeInteger_twosComplement`); from others the first can be taken away, which
leaves the number as it is (`twosComplement_of_not_isMinimal`). So each number has one
shortest form, which is the one that is written, and of one to eight octets it may be
read in any form.
-/

namespace DirectoryAccess.Ber

open Octets (ofBigEndian ofBigEndian_lt)

/-- Octets of a number that need the first of them: its bits and the first bit of the second octet
are neither all zero nor all one. -/
def IsMinimal : Octets → Prop
  | [] => False
  | [_] => True
  | first :: second :: _ => (first = 0x00 → ¬ second < 0x80) ∧ (first = 0xFF → second < 0x80)

instance : DecidablePred IsMinimal
  | [] => inferInstanceAs (Decidable False)
  | [_] => inferInstanceAs (Decidable True)
  | first :: second :: _ =>
    inferInstanceAs (Decidable ((first = 0x00 → ¬ second < 0x80) ∧ (first = 0xFF → second < 0x80)))

variable {octets : Octets} {v : Int}

/-! ## The first octet -/

/-- A first octet that repeats the sign of the second says nothing: behind it, the reading is where
it starts on the second one anyway. -/
theorem twosComplement_of_not_isMinimal {first second : UInt8} {rest : Octets}
    (h : ¬ IsMinimal (first :: second :: rest)) :
    twosComplement (first :: second :: rest) = twosComplement (second :: rest) := by
  have hstart : (if first < 0x80 then (0 : Int) else -1) * 256 + (first.toNat : Int) =
      if second < 0x80 then 0 else -1 := by
    by_cases hzero : first = 0x00
    · subst hzero
      have hsecond : second < 0x80 := by
        by_contra hsecond
        exact h ⟨fun _ => hsecond, nofun⟩
      rw [if_pos hsecond]
      rfl
    · obtain ⟨rfl, hsecond⟩ : first = 0xFF ∧ ¬ second < 0x80 := by
        by_contra hnone
        exact h ⟨fun hfirst => absurd hfirst hzero, fun hfirst =>
          by_contra fun hsecond => hnone ⟨hfirst, hsecond⟩⟩
      rw [if_neg hsecond]
      rfl
  rw [twosComplement, List.foldl_cons, hstart]
  rfl

/-- Octets that need the first of them do so without the last as well. -/
theorem IsMinimal.of_append_singleton {b : UInt8} (h : IsMinimal (octets ++ [b]))
    (hne : octets ≠ []) : IsMinimal octets := by
  match octets, hne with
  | [_], _ => trivial
  | first :: second :: rest, _ => exact h

/-! ## The form that is written -/

/-- Zero is one octet without a bit. -/
theorem encodeInteger_zero : encodeInteger 0 = [0x00] := by
  rw [encodeInteger, if_pos (by decide)]
  rfl

/-- The number before it is one octet with all bits. -/
theorem encodeInteger_neg_one : encodeInteger (-1) = [0xFF] := by
  rw [encodeInteger, if_pos (by decide)]
  rfl

/-- One octet is what its number is written as. -/
theorem encodeInteger_twosComplement_singleton (b : UInt8) :
    encodeInteger (twosComplement [b]) = [b] := by
  have hb := b.toNat_lt
  have hrange : -128 ≤ twosComplement [b] ∧ twosComplement [b] < 128 := firstOctet_bounds b
  have hlast : (twosComplement [b] % 256).toNat = b.toNat := by
    change (((if b < 0x80 then 0 else -1) * 256 + (b.toNat : Int)) % 256).toNat = b.toNat
    split <;> omega
  rw [encodeInteger, if_pos hrange, hlast, UInt8.ofNat_toNat]

/-- Octets that need all of theirs are what their number is written as. In the range of one octet,
those in front of the last would be a mere sign. -/
theorem encodeInteger_twosComplement (h : IsMinimal octets) :
    encodeInteger (twosComplement octets) = octets := by
  induction octets using List.reverseRecOn with
  | nil => exact h.elim
  | append_singleton octets b ih =>
      by_cases hne : octets = []
      · rw [hne, List.nil_append]
        exact encodeInteger_twosComplement_singleton b
      have hfront := ih (h.of_append_singleton hne)
      have hb := b.toNat_lt
      have hsign : b < 0x80 ↔ b.toNat < 128 := UInt8.lt_iff_toNat_lt
      rw [twosComplement_append_singleton hne]
      have hlarge : ¬ (-128 ≤ twosComplement octets * 256 + (b.toNat : Int) ∧
          twosComplement octets * 256 + (b.toNat : Int) < 128) := by
        rintro ⟨hl, hh⟩
        obtain ⟨hzero, hlow⟩ | ⟨hone, hhigh⟩ : (twosComplement octets = 0 ∧ b.toNat < 128) ∨
            (twosComplement octets = -1 ∧ 128 ≤ b.toNat) := by omega
        · rw [hzero, encodeInteger_zero] at hfront
          subst hfront
          exact h.1 rfl (hsign.mpr hlow)
        · rw [hone, encodeInteger_neg_one] at hfront
          subst hfront
          exact Nat.not_lt.mpr hhigh (hsign.mp (h.2 rfl))
      have hquotient : (twosComplement octets * 256 + (b.toNat : Int)) / 256 =
          twosComplement octets := by omega
      have hlast : ((twosComplement octets * 256 + (b.toNat : Int)) % 256).toNat = b.toNat := by
        omega
      rw [encodeInteger, if_neg hlarge, hquotient, hlast, UInt8.ofNat_toNat, hfront]

/-- A number is written with fewer octets than some that do not need the first of theirs. -/
theorem length_encodeInteger_lt (hne : octets ≠ []) (h : ¬ IsMinimal octets) :
    (encodeInteger (twosComplement octets)).length < octets.length := by
  match octets, hne with
  | [_], _ => exact absurd trivial h
  | first :: second :: rest, _ =>
      rw [twosComplement_of_not_isMinimal h]
      exact Nat.lt_succ_of_le (length_encodeInteger_twosComplement_le (List.cons_ne_nil _ _))

/-- A number is written again as the octets that it was read from exactly if they need the first of
them. -/
theorem encodeInteger_twosComplement_eq_iff (hne : octets ≠ []) :
    encodeInteger (twosComplement octets) = octets ↔ IsMinimal octets := by
  refine ⟨fun h => ?_, encodeInteger_twosComplement⟩
  by_contra hlonger
  have hlt := length_encodeInteger_lt hne hlonger
  rw [h] at hlt
  exact Nat.lt_irrefl _ hlt

example : IsMinimal [0x00, 0x80] ∧ ¬ IsMinimal [0x00, 0x7F] ∧ ¬ IsMinimal [0xFF, 0x80] := by
  decide

/-! ## Ranges -/

/-- Octets stand for numbers that their count has room for. -/
theorem signed_bounds (octets : Octets) :
    -(256 ^ octets.length) ≤ 2 * signed octets ∧ 2 * signed octets < 256 ^ octets.length := by
  have hlt := ofBigEndian_lt octets
  have hpow : ((256 ^ octets.length : Nat) : Int) = 256 ^ octets.length := Int.natCast_pow 256 _
  rw [signed]
  split <;> omega

/-- What is read is a number of 64 bits. -/
theorem bounds_of_decodeInteger (h : decodeInteger octets = .ok v) :
    v = signed octets ∧ -2 ^ 63 ≤ v ∧ v < 2 ^ 63 := by
  obtain ⟨-, hle, rfl⟩ := decodeInteger_eq_ok_iff.mp h
  rw [twosComplement_eq]
  obtain ⟨hl, hh⟩ := signed_bounds octets
  have hmono : 256 ^ octets.length ≤ 256 ^ 8 := Nat.pow_le_pow_right (by decide) hle
  have hpow : ((256 ^ octets.length : Nat) : Int) = 256 ^ octets.length := Int.natCast_pow 256 _
  omega

/-- A 32-bit number is read where the same octets are read as that number of 64 bits. -/
theorem decodeInt32_eq_ok_iff_decodeInteger {w : Int32} :
    decodeInt32 octets = .ok w ↔ decodeInteger octets = .ok w.toInt := by
  rw [decodeInt32, bind_eq_ok_iff]
  constructor
  · rintro ⟨v, hv, hw⟩
    rw [hv, toInt_of_toInt32 hw]
  · intro h
    exact ⟨w.toInt, h, toInt32_toInt w⟩

/-- A number of 64 bits is read as one of 32 bits exactly if these can hold it. -/
theorem exists_decodeInt32_iff : (∃ w, decodeInt32 octets = .ok w) ↔
    ∃ v, decodeInteger octets = .ok v ∧ -2 ^ 31 ≤ v ∧ v ≤ 2 ^ 31 - 1 := by
  constructor
  · rintro ⟨w, hw⟩
    have hl := Int32.le_toInt w
    have hh := Int32.toInt_lt w
    exact ⟨w.toInt, decodeInt32_eq_ok_iff_decodeInteger.mp hw, by omega, by omega⟩
  · rintro ⟨v, hv, hl, hh⟩
    have hback : (Int32.ofInt v).toInt = v := Int32.toInt_ofInt_of_le (by omega) (by omega)
    refine ⟨Int32.ofInt v, decodeInt32_eq_ok_iff_decodeInteger.mpr ?_⟩
    rw [hback]
    exact hv

/-- A 32-bit number is read off a reader where the next element is seen as one. -/
theorem Reading.int32_eq_ok_iff {r r' : Reader} {w : Int32} :
    int32 r = (.ok w, r') ↔ ∃ e, element r = (.ok e, r') ∧ e.asInt32 = .ok w := by
  rw [int32_eq_elementAs]
  constructor
  · intro h
    obtain ⟨e, s, he, hw⟩ := exists_of_bind_eq_ok h
    rw [ofExcept_apply, Prod.mk.injEq] at hw
    obtain ⟨hw, rfl⟩ := hw
    exact ⟨e, he, hw⟩
  · rintro ⟨e, he, hw⟩
    rw [elementAs_of_element he, hw]

/-! ## The whole range -/

/-- How a number of 64 bits is written. -/
structure WrittenShortest (v : Int64) : Prop where
  /-- There is an octet. -/
  one_le_length : 1 ≤ (encodeInteger v.toInt).length
  /-- There are no more octets than the number has room in. -/
  length_le_eight : (encodeInteger v.toInt).length ≤ 8
  /-- The octets are read back as the number. -/
  decode_eq : decodeInteger (encodeInteger v.toInt) = .ok v.toInt
  /-- No fewer octets are read as the number. -/
  length_le : ∀ octets, decodeInteger octets = .ok v.toInt →
    (encodeInteger v.toInt).length ≤ octets.length

/-- How octets are read as a number, of 64 bits and of 32. -/
structure ReadSigned (octets : Octets) : Prop where
  /-- They are read exactly if they are one to eight. -/
  exists_ok_iff : (∃ v, decodeInteger octets = .ok v) ↔ 1 ≤ octets.length ∧ octets.length ≤ 8
  /-- The number is what they stand for in two's complement, and 64 bits hold it. -/
  eq_signed : ∀ v, decodeInteger octets = .ok v → v = signed octets ∧ -2 ^ 63 ≤ v ∧ v < 2 ^ 63
  /-- The number is written as the same octets exactly if they are the minimal form. -/
  encode_eq_iff : ∀ v, decodeInteger octets = .ok v →
    (encodeInteger v = octets ↔ IsMinimal octets)
  /-- From any other form it is written as fewer. -/
  length_lt : ∀ v, decodeInteger octets = .ok v → ¬ IsMinimal octets →
    (encodeInteger v).length < octets.length
  /-- They are read as a number of 32 bits exactly if these can hold it. -/
  exists_int32_iff : ∀ tag, (∃ w, (Element.mk tag octets).asInt32 = .ok w) ↔
    ∃ v, decodeInteger octets = .ok v ∧ -2 ^ 31 ≤ v ∧ v ≤ 2 ^ 31 - 1
  /-- It is the same number then. -/
  int32_eq : ∀ tag w, (Element.mk tag octets).asInt32 = .ok w →
    decodeInteger octets = .ok w.toInt

/-- All numbers of 64 bits are written in the fewest octets. -/
theorem writtenShortest (v : Int64) : WrittenShortest v := by
  have hl := Int64.le_toInt v
  have hh := Int64.toInt_lt v
  constructor
  · exact List.length_pos_iff.mpr (encodeInteger_ne_nil v.toInt)
  · exact length_encodeInteger_le (k := 7) (by omega) (by omega)
  · exact decodeInteger_encodeInteger hl hh
  · intro octets h
    obtain ⟨hpos, -, hvalue⟩ := decodeInteger_eq_ok_iff.mp h
    rw [hvalue]
    exact length_encodeInteger_twosComplement_le (List.ne_nil_of_length_pos hpos)

/-- All octets are read as what they stand for, if there are one to eight of them. -/
theorem readSigned (octets : Octets) : ReadSigned octets where
  exists_ok_iff := by
    simp only [decodeInteger_eq_ok_iff, exists_and_left, exists_eq, and_true]
    exact Iff.rfl
  eq_signed _ := bounds_of_decodeInteger
  encode_eq_iff v h := by
    obtain ⟨hpos, -, rfl⟩ := decodeInteger_eq_ok_iff.mp h
    exact encodeInteger_twosComplement_eq_iff (List.ne_nil_of_length_pos hpos)
  length_lt v h hlonger := by
    obtain ⟨hpos, -, rfl⟩ := decodeInteger_eq_ok_iff.mp h
    exact length_encodeInteger_lt (List.ne_nil_of_length_pos hpos) hlonger
  exists_int32_iff _ := exists_decodeInt32_iff
  int32_eq _ _ := decodeInt32_eq_ok_iff_decodeInteger.mp

/-- **Numbers over the full range.** Every number of 64 bits is written as the fewest octets that
are read as it, and all octets are read as the number that they stand for in two's complement if
they are one to eight. A number of 32 bits is read, off a reader too, exactly where the octets stand
for one. -/
theorem integer_octets_exact :
    (∀ v, WrittenShortest v) ∧ (∀ octets, ReadSigned octets) ∧
      ∀ (r r' : Reader) (w : Int32), Reading.int32 r = (.ok w, r') ↔
        ∃ e, Reading.element r = (.ok e, r') ∧ e.asInt32 = .ok w :=
  ⟨writtenShortest, readSigned, fun _ _ _ => Reading.int32_eq_ok_iff⟩

end DirectoryAccess.Ber
