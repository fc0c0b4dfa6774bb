import DirectoryAccess.Text.Utf8

/-!
# Written text reads back

A character is written as one to four octets, and each of them is the one that the
reader waits for: the lead octet opens a `Partial` with the right range for the
next octet, every continuation octet extends it by six bits, and the last one
completes the number of the character. So a written text is read back octet by
octet (`decode_encode`). The other way round, whatever continuation a `Partial`
accepts completes the octets read before it to those of a character (`Spells`), so
a text that is read is written as the octets that it was read from
(`encode_of_decode`).
-/

namespace DirectoryAccess.Utf8

/-- What a lead octet opens, told by its number. -/
theorem lead_ofNat {n : Nat} (hn : n < 256) : Step.lead (UInt8.ofNat n) =
    if n < 0x80 then .char (Char.ofNat n)
    else if n < 0xC2 then .refused
    else if n < 0xE0 then .unfinished ⟨0x80, 0xBF, 0, n % 32, 1⟩
    else if n = 0xE0 then .unfinished ⟨0xA0, 0xBF, 1, 0, 1⟩
    else if n = 0xED then .unfinished ⟨0x80, 0x9F, 1, 13, 1⟩
    else if n < 0xF0 then .unfinished ⟨0x80, 0xBF, 1, n % 16, 1⟩
    else if n = 0xF0 then .unfinished ⟨0x90, 0xBF, 2, 0, 1⟩
    else if n < 0xF4 then .unfinished ⟨0x80, 0xBF, 2, n % 8, 1⟩
    else if n = 0xF4 then .unfinished ⟨0x80, 0x8F, 2, 4, 1⟩
    else .refused := by
  have hb : (UInt8.ofNat n).toNat = n := UInt8.toNat_ofNat_of_lt' hn
  simp only [Step.lead, UInt8.lt_iff_toNat_lt, ← UInt8.toNat_inj, hb]
  rfl

/-- A continuation octet in the range that is waited for adds its six bits. -/
theorem extend_ofNat {p : Partial} {k : Nat} (hk : k < 64) (hl : p.low.toNat ≤ k + 0x80)
    (hh : k + 0x80 ≤ p.high.toNat) : p.extend (UInt8.ofNat (k + 0x80)) =
      match p.missing with
      | 0 => .char (Char.ofNat (p.bits * 64 + k))
      | missing + 1 => .unfinished ⟨0x80, 0xBF, missing, p.bits * 64 + k, p.width + 1⟩ := by
  have hs : k + 0x80 < UInt8.size := show k + 0x80 < 256 by omega
  have hb : (UInt8.ofNat (k + 0x80)).toNat = k + 0x80 := UInt8.toNat_ofNat_of_lt' hs
  have hm : (k + 0x80) % 64 = k := by omega
  have hrange : p.low ≤ UInt8.ofNat (k + 0x80) ∧ UInt8.ofNat (k + 0x80) ≤ p.high := by
    rw [UInt8.le_iff_toNat_le, UInt8.le_iff_toNat_le, hb]
    exact ⟨hl, hh⟩
  cases hmissing : p.missing with
  | zero => simp only [Partial.extend, if_pos hrange, hb, hm, hmissing]
  | succ missing => simp only [Partial.extend, if_pos hrange, hb, hm, hmissing]

section Characters

variable {index : Nat} {text : List Char} {rest : Octets}

/-- A continuation octet that more have to follow. -/
theorem decodeFrom_middle {low high : UInt8} {missing bits width k : Nat} (hk : k < 64)
    (hl : low.toNat ≤ k + 0x80) (hh : k + 0x80 ≤ high.toNat) :
    decodeFrom index text (some ⟨low, high, missing + 1, bits, width⟩)
        (UInt8.ofNat (k + 0x80) :: rest) =
      decodeFrom index text (some ⟨0x80, 0xBF, missing, bits * 64 + k, width + 1⟩) rest := by
  rw [decodeFrom, extend_ofNat hk hl hh]

/-- The continuation octet that completes a character. -/
theorem decodeFrom_last {low high : UInt8} {bits width k : Nat} (hk : k < 64)
    (hl : low.toNat ≤ k + 0x80) (hh : k + 0x80 ≤ high.toNat) :
    decodeFrom index text (some ⟨low, high, 0, bits, width⟩) (UInt8.ofNat (k + 0x80) :: rest) =
      decodeFrom (index + width + 1) (Char.ofNat (bits * 64 + k) :: text) none rest := by
  rw [decodeFrom, extend_ofNat hk hl hh]

/-- A lead octet that opens a character of several octets. -/
theorem decodeFrom_lead {n : Nat} {p : Partial} (hp : Step.lead (UInt8.ofNat n) = .unfinished p) :
    decodeFrom index text none (UInt8.ofNat n :: rest) = decodeFrom index text (some p) rest := by
  rw [decodeFrom, hp]

/-- A character of two octets. -/
theorem decodeFrom_two {v : Nat} (hl : 0x80 ≤ v) (hh : v ≤ 0x7FF) :
    decodeFrom index text none
        (UInt8.ofNat (v / 64 % 0x20 + 0xC0) :: UInt8.ofNat (v % 0x40 + 0x80) :: rest) =
      decodeFrom (index + 2) (Char.ofNat v :: text) none rest := by
  have hp : Step.lead (UInt8.ofNat (v / 64 % 0x20 + 0xC0)) =
      .unfinished ⟨0x80, 0xBF, 0, v / 64, 1⟩ := by
    rw [lead_ofNat (by omega), if_neg (by omega), if_neg (by omega), if_pos (by omega),
      show (v / 64 % 0x20 + 0xC0) % 32 = v / 64 by omega]
  have hv : v / 64 * 64 + v % 0x40 = v := by omega
  rw [decodeFrom_lead hp, decodeFrom_last (by omega) (by simp) (by simp; omega), hv]

/-- A character of three octets, which is not the number of a surrogate. -/
theorem decodeFrom_three {v : Nat} (hl : 0x800 ≤ v) (hh : v ≤ 0xFFFF)
    (hs : v < 0xD800 ∨ 0xE000 ≤ v) :
    decodeFrom index text none
        (UInt8.ofNat (v / 4096 % 0x10 + 0xE0) :: UInt8.ofNat (v / 64 % 0x40 + 0x80) ::
          UInt8.ofNat (v % 0x40 + 0x80) :: rest) =
      decodeFrom (index + 3) (Char.ofNat v :: text) none rest := by
  obtain ⟨low, high, hp, hlow, hhigh⟩ : ∃ low high : UInt8,
      Step.lead (UInt8.ofNat (v / 4096 % 0x10 + 0xE0)) =
        .unfinished ⟨low, high, 1, v / 4096, 1⟩ ∧
      low.toNat ≤ v / 64 % 0x40 + 0x80 ∧ v / 64 % 0x40 + 0x80 ≤ high.toNat := by
    rw [lead_ofNat (by omega), if_neg (by omega), if_neg (by omega), if_neg (by omega)]
    by_cases hfirst : v < 0x1000
    · rw [if_pos (by omega), show v / 4096 = 0 by omega]
      exact ⟨_, _, rfl, by simp; omega, by simp; omega⟩
    · rw [if_neg (by omega)]
      by_cases hsurrogate : 0xD000 ≤ v ∧ v < 0xE000
      · rw [if_pos (by omega), show v / 4096 = 13 by omega]
        exact ⟨_, _, rfl, by simp, by simp; omega⟩
      · rw [if_neg (by omega), if_pos (by omega),
          show (v / 4096 % 0x10 + 0xE0) % 16 = v / 4096 by omega]
        exact ⟨_, _, rfl, by simp, by simp; omega⟩
  have hv : (v / 4096 * 64 + v / 64 % 0x40) * 64 + v % 0x40 = v := by omega
  rw [decodeFrom_lead hp, decodeFrom_middle (by omega) hlow hhigh,
    decodeFrom_last (by omega) (by simp) (by simp; omega), hv]

/-- A character of four octets. -/
theorem decodeFrom_four {v : Nat} (hl : 0x10000 ≤ v) (hh : v < 0x110000) :
    decodeFrom index text none
        (UInt8.ofNat (v / 262144 % 0x08 + 0xF0) :: UInt8.ofNat (v / 4096 % 0x40 + 0x80) ::
          UInt8.ofNat (v / 64 % 0x40 + 0x80) :: UInt8.ofNat (v % 0x40 + 0x80) :: rest) =
      decodeFrom (index + 4) (Char.ofNat v :: text) none rest := by
  obtain ⟨low, high, hp, hlow, hhigh⟩ : ∃ low high : UInt8,
      Step.lead (UInt8.ofNat (v / 262144 % 0x08 + 0xF0)) =
        .unfinished ⟨low, high, 2, v / 262144, 1⟩ ∧
      low.toNat ≤ v / 4096 % 0x40 + 0x80 ∧ v / 4096 % 0x40 + 0x80 ≤ high.toNat := by
    rw [lead_ofNat (by omega), if_neg (by omega), if_neg (by omega), if_neg (by omega),
      if_neg (by omega), if_neg (by omega), if_neg (by omega)]
    by_cases hfirst : v < 0x40000
    · rw [if_pos (by omega), show v / 262144 = 0 by omega]
      exact ⟨_, _, rfl, by simp; omega, by simp; omega⟩
    · rw [if_neg (by omega)]
      by_cases hlast : 0x100000 ≤ v
      · rw [if_neg (by omega), if_pos (by omega), show v / 262144 = 4 by omega]
        exact ⟨_, _, rfl, by simp, by simp; omega⟩
      · rw [if_pos (by omega), show (v / 262144 % 0x08 + 0xF0) % 8 = v / 262144 by omega]
        exact ⟨_, _, rfl, by simp, by simp; omega⟩
  have hv : ((v / 262144 * 64 + v / 4096 % 0x40) * 64 + v / 64 % 0x40) * 64 + v % 0x40 = v := by
    omega
  rw [decodeFrom_lead hp, decodeFrom_middle (by omega) hlow hhigh,
    decodeFrom_middle (by omega) (by simp) (by simp; omega),
    decodeFrom_last (by omega) (by simp) (by simp; omega), hv]

/-- The octets of a character are read as that character. -/
theorem decodeFrom_utf8EncodeChar (c : Char) :
    decodeFrom index text none (String.utf8EncodeChar c ++ rest) =
      decodeFrom (index + c.utf8Size) (c :: text) none rest := by
  have hc : Char.ofNat c.val.toNat = c := Char.ofNat_toNat c
  have hvalid : c.val.toNat < 0xD800 ∨ 0xDFFF < c.val.toNat ∧ c.val.toNat < 0x110000 := c.valid
  simp only [String.utf8EncodeChar]
  by_cases hone : c.val.toNat ≤ 0x7F
  · have hsize : c.utf8Size = 1 := Char.utf8Size_eq_one_iff.mpr (UInt32.le_iff_toNat_le.mpr hone)
    have hp : Step.lead (UInt8.ofNat c.val.toNat) = .char c := by
      rw [lead_ofNat (by omega), if_pos (by omega), hc]
    rw [if_pos hone, hsize, List.cons_append, List.nil_append, decodeFrom, hp]
  rw [if_neg hone]
  by_cases htwo : c.val.toNat ≤ 0x7FF
  · have hsize : c.utf8Size = 2 := Char.utf8Size_eq_two_iff.mpr
      ⟨UInt32.lt_iff_toNat_lt.mpr (Nat.lt_of_not_le hone), UInt32.le_iff_toNat_le.mpr htwo⟩
    rw [if_pos htwo, hsize]
    exact (decodeFrom_two (by omega) htwo).trans (by rw [hc]; rfl)
  rw [if_neg htwo]
  by_cases hthree : c.val.toNat ≤ 0xFFFF
  · have hsize : c.utf8Size = 3 := Char.utf8Size_eq_three_iff.mpr
      ⟨UInt32.lt_iff_toNat_lt.mpr (Nat.lt_of_not_le htwo), UInt32.le_iff_toNat_le.mpr hthree⟩
    rw [if_pos hthree, hsize]
    exact (decodeFrom_three (by omega) hthree (by omega)).trans (by rw [hc]; rfl)
  · have hsize : c.utf8Size = 4 := Char.utf8Size_eq_four_iff.mpr
      (UInt32.lt_iff_toNat_lt.mpr (Nat.lt_of_not_le hthree))
    rw [if_neg hthree, hsize]
    exact (decodeFrom_four (by omega) (by omega)).trans (by rw [hc]; rfl)

end Characters

/-- The octets of some characters are read as these characters. -/
theorem decodeFrom_flatMap (index : Nat) (text chars : List Char) :
    decodeFrom index text none (chars.flatMap String.utf8EncodeChar) =
      .ok (text.reverse ++ chars) := by
  induction chars generalizing index text with
  | nil => simp only [List.flatMap_nil, decodeFrom, List.append_nil]
  | cons c chars ih =>
      rw [List.flatMap_cons, decodeFrom_utf8EncodeChar, ih, List.reverse_cons, List.append_assoc,
        List.singleton_append]

/-- A text is read back from the octets that it is written as. -/
theorem decode_encode (text : String) : decode (encode text) = .ok text := by
  rw [decode, encode, decodeFrom_flatMap, List.reverse_nil, List.nil_append]
  exact congrArg Except.ok (String.ofList_toList)

/-! ## Octets that are read -/

/-- The code of a character that is made of a valid code is that code. -/
theorem toNat_val_ofNat {v : Nat} (h : v.isValidChar) : (Char.ofNat v).val.toNat = v := by
  rw [Char.ofNat, dif_pos h]
  rfl

/-- A continuation octet is told by the six bits that it adds. -/
theorem exists_continuation {b : UInt8} (hl : 0x80 ≤ b) (hh : b ≤ 0xBF) :
    ∃ k < 64, b = UInt8.ofNat (k + 0x80) ∧ b.toNat = k + 0x80 := by
  have hlow : 0x80 ≤ b.toNat := UInt8.le_iff_toNat_le.mp hl
  have hhigh : b.toNat ≤ 0xBF := UInt8.le_iff_toNat_le.mp hh
  refine ⟨b.toNat - 0x80, by omega, ?_, by omega⟩
  rw [Nat.sub_add_cancel hlow, UInt8.ofNat_toNat]

/-- Every continuation that is accepted completes the octets in front of it to those of the
character that is read. -/
def Spells (low high : UInt8) (bits : Nat) (front : Octets) : Nat → Prop
  | 0 => ∀ b, low ≤ b → b ≤ high →
    String.utf8EncodeChar (Char.ofNat (bits * 64 + b.toNat % 64)) = front ++ [b]
  | missing + 1 => ∀ b, low ≤ b → b ≤ high →
    Spells 0x80 0xBF (bits * 64 + b.toNat % 64) (front ++ [b]) missing

/-- The first of two octets is completed to a character of two. -/
theorem spells_two (bits : Nat) (hl : 2 ≤ bits) (hh : bits < 32) :
    Spells 0x80 0xBF bits [UInt8.ofNat (bits + 0xC0)] 0 := by
  intro b hbl hbh
  obtain ⟨k, hk, rfl, hb⟩ := exists_continuation hbl hbh
  have hv : (Char.ofNat (bits * 64 + k)).val.toNat = bits * 64 + k := toNat_val_ofNat (by omega)
  rw [hb, show (k + 0x80) % 64 = k by omega, String.utf8EncodeChar, hv, if_neg (by omega),
    if_pos (by omega), show (bits * 64 + k) / 64 % 32 + 192 = bits + 0xC0 by omega,
    show (bits * 64 + k) % 64 + 128 = k + 0x80 by omega]
  rfl

/-- The first of three octets is completed to a character of three, if what follows is neither too
small nor a surrogate. -/
theorem spells_three (bits : Nat) {low high : UInt8} (hbits : bits < 16) (hlow : 0x80 ≤ low)
    (hhigh : high ≤ 0xBF) (hfirst : bits = 0 → 0xA0 ≤ low) (hsurrogate : bits = 13 → high ≤ 0x9F) :
    Spells low high bits [UInt8.ofNat (bits + 0xE0)] 1 := by
  intro b hbl hbh c hcl hch
  obtain ⟨k, hk, rfl, hb⟩ :=
    exists_continuation (UInt8.le_trans hlow hbl) (UInt8.le_trans hbh hhigh)
  obtain ⟨l, hl, rfl, hc⟩ := exists_continuation hcl hch
  have hk0 : bits = 0 → 0x20 ≤ k := fun h => by
    have hle := UInt8.le_iff_toNat_le.mp (UInt8.le_trans (hfirst h) hbl)
    change 0xA0 ≤ _ at hle
    omega
  have hk13 : bits = 13 → k < 0x20 := fun h => by
    have hle := UInt8.le_iff_toNat_le.mp (UInt8.le_trans hbh (hsurrogate h))
    change _ ≤ 0x9F at hle
    omega
  have hv : (Char.ofNat ((bits * 64 + k) * 64 + l)).val.toNat = (bits * 64 + k) * 64 + l :=
    toNat_val_ofNat (by omega)
  rw [hb, hc, show (k + 0x80) % 64 = k by omega, show (l + 0x80) % 64 = l by omega,
    String.utf8EncodeChar, hv, if_neg (by omega), if_neg (by omega), if_pos (by omega),
    show ((bits * 64 + k) * 64 + l) / 4096 % 16 + 224 = bits + 0xE0 by omega,
    show ((bits * 64 + k) * 64 + l) / 64 % 64 + 128 = k + 0x80 by omega,
    show ((bits * 64 + k) * 64 + l) % 64 + 128 = l + 0x80 by omega]
  rfl

/-- The first of four octets is completed to a character of four, if what follows is neither too
small nor too large. -/
theorem spells_four (bits : Nat) {low high : UInt8} (hbits : bits ≤ 4) (hlow : 0x80 ≤ low)
    (hhigh : high ≤ 0xBF) (hfirst : bits = 0 → 0x90 ≤ low) (hlast : bits = 4 → high ≤ 0x8F) :
    Spells low high bits [UInt8.ofNat (bits + 0xF0)] 2 := by
  intro b hbl hbh c hcl hch d hdl hdh
  obtain ⟨k, hk, rfl, hb⟩ :=
    exists_continuation (UInt8.le_trans hlow hbl) (UInt8.le_trans hbh hhigh)
  obtain ⟨l, hl, rfl, hc⟩ := exists_continuation hcl hch
  obtain ⟨m, hm, rfl, hd⟩ := exists_continuation hdl hdh
  have hk0 : bits = 0 → 0x10 ≤ k := fun h => by
    have hle := UInt8.le_iff_toNat_le.mp (UInt8.le_trans (hfirst h) hbl)
    change 0x90 ≤ _ at hle
    omega
  have hk4 : bits = 4 → k < 0x10 := fun h => by
    have hle := UInt8.le_iff_toNat_le.mp (UInt8.le_trans hbh (hlast h))
    change _ ≤ 0x8F at hle
    omega
  have hv : (Char.ofNat (((bits * 64 + k) * 64 + l) * 64 + m)).val.toNat =
      ((bits * 64 + k) * 64 + l) * 64 + m := toNat_val_ofNat (by omega)
  rw [hb, hc, hd, show (k + 0x80) % 64 = k by omega, show (l + 0x80) % 64 = l by omega,
    show (m + 0x80) % 64 = m by omega, String.utf8EncodeChar, hv, if_neg (by omega),
    if_neg (by omega), if_neg (by omega),
    show (((bits * 64 + k) * 64 + l) * 64 + m) / 262144 % 8 + 240 = bits + 0xF0 by omega,
    show (((bits * 64 + k) * 64 + l) * 64 + m) / 4096 % 64 + 128 = k + 0x80 by omega,
    show (((bits * 64 + k) * 64 + l) * 64 + m) / 64 % 64 + 128 = l + 0x80 by omega,
    show (((bits * 64 + k) * 64 + l) * 64 + m) % 64 + 128 = m + 0x80 by omega]
  rfl

/-- A lead octet is a character, or is in front of those that it opens. -/
theorem lead_spells {b : UInt8} :
    (∀ c, Step.lead b = .char c → String.utf8EncodeChar c = [b]) ∧
      ∀ p, Step.lead b = .unfinished p → Spells p.low p.high p.bits [b] p.missing := by
  obtain ⟨n, hn, rfl⟩ : ∃ n < 256, b = UInt8.ofNat n :=
    ⟨b.toNat, b.toNat_lt, UInt8.ofNat_toNat.symm⟩
  rw [lead_ofNat hn]
  constructor
  · intro c hc
    by_cases h : n < 0x80
    · rw [if_pos h] at hc
      cases hc
      rw [String.utf8EncodeChar, toNat_val_ofNat (by omega), if_pos (by omega)]
    · rw [if_neg h] at hc
      repeat' split at hc
      all_goals cases hc
  · intro p hp
    repeat' split at hp
    all_goals cases hp
    · have h := spells_two (n % 32) (by omega) (by omega)
      rwa [show n % 32 + 0xC0 = n by omega] at h
    · rename_i hfirst
      rw [hfirst]
      exact spells_three 0 (by decide) (by decide) (by decide) (fun _ => by decide) nofun
    · rename_i hsurrogate
      rw [hsurrogate]
      exact spells_three 13 (by decide) (by decide) (by decide) nofun (fun _ => by decide)
    · have h : Spells 0x80 0xBF (n % 16) [UInt8.ofNat (n % 16 + 0xE0)] 1 :=
        spells_three (n % 16) (by omega) (by decide) (by decide) (by omega) (by omega)
      rwa [show n % 16 + 0xE0 = n by omega] at h
    · rename_i hfirst
      rw [hfirst]
      exact spells_four 0 (by decide) (by decide) (by decide) (fun _ => by decide) nofun
    · have h : Spells 0x80 0xBF (n % 8) [UInt8.ofNat (n % 8 + 0xF0)] 2 :=
        spells_four (n % 8) (by omega) (by decide) (by decide) (by omega) (by omega)
      rwa [show n % 8 + 0xF0 = n by omega] at h
    · rename_i hlast
      rw [hlast]
      exact spells_four 4 (by decide) (by decide) (by decide) nofun (fun _ => by decide)

/-- The octets of a character that have been read, where one is unfinished. -/
def Pending : Option Partial → Octets → Prop
  | none, front => front = []
  | some p, front => Spells p.low p.high p.bits front p.missing

/-- What is read are the octets that stand for what they are read as. -/
theorem flatMap_of_decodeFrom {index : Nat} {text chars : List Char} {pending : Option Partial}
    {front octets : Octets} (hp : Pending pending front)
    (h : decodeFrom index text pending octets = .ok chars) :
    chars.flatMap String.utf8EncodeChar =
      text.reverse.flatMap String.utf8EncodeChar ++ front ++ octets := by
  have hnone : Pending none [] := rfl
  induction octets generalizing index text pending front with
  | nil =>
      cases pending with
      | none =>
          obtain rfl := Except.ok.inj h
          rw [show front = [] from hp, List.append_nil, List.append_nil]
      | some p => cases h
  | cons b octets ih =>
      cases pending with
      | none =>
          obtain rfl : front = [] := hp
          rw [decodeFrom] at h
          split at h
          · rename_i c hstep
            rw [ih hnone h, List.reverse_cons, List.flatMap_append,
              List.flatMap_singleton, lead_spells.1 c hstep]
            simp only [List.append_nil, List.append_assoc, List.singleton_append]
          · rename_i p hstep
            have hopen : Pending (some p) [b] := lead_spells.2 p hstep
            rw [ih hopen h]
            simp only [List.append_nil, List.append_assoc, List.singleton_append]
          · cases h
      | some p =>
          rw [decodeFrom, Partial.extend] at h
          by_cases hrange : p.low ≤ b ∧ b ≤ p.high
          · rw [if_pos hrange] at h
            cases hmissing : p.missing with
            | zero =>
                rw [Pending, hmissing] at hp
                simp only [hmissing] at h
                rw [ih hnone h, List.reverse_cons, List.flatMap_append,
                  List.flatMap_singleton, hp b hrange.1 hrange.2]
                simp only [List.append_nil, List.append_assoc, List.singleton_append]
            | succ missing =>
                rw [Pending, hmissing] at hp
                simp only [hmissing] at h
                have hopen : Pending (some ⟨0x80, 0xBF, missing, p.bits * 64 + b.toNat % 64,
                    p.width + 1⟩) (front ++ [b]) := hp b hrange.1 hrange.2
                rw [ih hopen h]
                simp only [List.append_assoc, List.singleton_append]
          · rw [if_neg hrange] at h
            cases h

/-- Octets that spell a text are the ones that it is written as. -/
theorem encode_of_decode {octets : Octets} {text : String} (h : decode octets = .ok text) :
    encode text = octets := by
  rw [decode] at h
  cases hchars : decodeFrom 0 [] none octets with
  | error fault =>
      rw [hchars] at h
      cases h
  | ok chars =>
      rw [hchars] at h
      obtain rfl := Except.ok.inj h
      have hnone : Pending none [] := rfl
      rw [encode, String.toList_ofList, flatMap_of_decodeFrom hnone hchars]
      rfl

end DirectoryAccess.Utf8
