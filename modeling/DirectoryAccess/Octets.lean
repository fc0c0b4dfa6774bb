/-!
# Octet strings

An octet string is a list of octets. Two readings of it are used everywhere: its
hexadecimal text, two lower-case digits an octet, and the natural number whose
base-256 digits it holds, most significant first. A number has exactly one
shortest big-endian form, and reading that form gives the number back
(`ofBigEndian_bigEndian`).
-/

namespace DirectoryAccess

/-- A string of octets. -/
abbrev Octets := List UInt8

/-- The lower-case hexadecimal digit of a number below sixteen. -/
def hexDigit (n : Nat) : Char :=
  if n < 10 then Char.ofNat (0x30 + n) else Char.ofNat (0x57 + n)

/-- An octet as two lower-case hexadecimal digits. -/
def hexOctet (b : UInt8) : String :=
  String.ofList [hexDigit (b.toNat / 16), hexDigit (b.toNat % 16)]

namespace Octets

/-- Two lower-case hexadecimal digits for each octet, in order. -/
def hex (octets : Octets) : String :=
  octets.foldl
    (fun text b => (text.push (hexDigit (b.toNat / 16))).push (hexDigit (b.toNat % 16))) ""

/-- The fewest octets that hold `n`, most significant first; zero takes one octet. -/
def bigEndian (n : Nat) : Octets :=
  if n < 256 then [UInt8.ofNat n] else bigEndian (n / 256) ++ [UInt8.ofNat (n % 256)]
termination_by n

/-- The natural number with the given base-256 digits, most significant first. -/
def ofBigEndian (octets : Octets) : Nat :=
  octets.foldl (fun n b => n * 256 + b.toNat) 0

/-- A further octet is the lowest digit of the number. -/
theorem ofBigEndian_append_singleton (octets : Octets) (b : UInt8) :
    ofBigEndian (octets ++ [b]) = ofBigEndian octets * 256 + b.toNat := by
  simp only [ofBigEndian, List.foldl_append, List.foldl_cons, List.foldl_nil]

/-- The shortest big-endian form reads back as the number it was written for. -/
theorem ofBigEndian_bigEndian (n : Nat) : ofBigEndian (bigEndian n) = n := by
  induction n using bigEndian.induct with
  | case1 n h =>
    rw [bigEndian, if_pos h]
    simp only [ofBigEndian, List.foldl_cons, List.foldl_nil, Nat.zero_mul, Nat.zero_add]
    exact UInt8.toNat_ofNat_of_lt' h
  | case2 n h ih =>
    have hb : (UInt8.ofNat (n % 256)).toNat = n % 256 :=
      UInt8.toNat_ofNat_of_lt' (Nat.mod_lt n (by decide))
    rw [bigEndian, if_neg h, ofBigEndian_append_singleton, ih, hb]
    omega

end Octets

end DirectoryAccess
