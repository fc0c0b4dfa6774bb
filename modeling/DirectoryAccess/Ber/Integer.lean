import DirectoryAccess.Ber.Fault

/-!
# Numbers

A number is its two's complement octets, most significant first. Writing uses the
fewest octets; reading accepts one to eight of them, padded or not. A 32-bit
number is read as any number and then has to fit.
-/

namespace DirectoryAccess.Ber

/-- The fewest octets whose two's complement is `v`. -/
def encodeInteger (v : Int) : Octets :=
  if -128 ≤ v ∧ v < 128 then [UInt8.ofNat (v % 256).toNat]
  else encodeInteger (v / 256) ++ [UInt8.ofNat (v % 256).toNat]
termination_by v.natAbs
decreasing_by omega

/-- The two's complement of some octets; none stand for zero. -/
def twosComplement : Octets → Int
  | [] => 0
  | b :: rest =>
    (b :: rest).foldl (fun v digit => v * 256 + (digit.toNat : Int)) (if b < 0x80 then 0 else -1)

/-- The number that one to eight octets hold. -/
def decodeInteger (octets : Octets) : Except Failure Int :=
  if octets.isEmpty then .error Fault.emptyInteger
  else if 8 < octets.length then .error (Fault.wideInteger octets.length)
  else .ok (twosComplement octets)

/-- The 32-bit word that holds a number, if there is one. -/
def toInt32 (v : Int) : Except Failure Int32 :=
  if -2147483648 ≤ v ∧ v ≤ 2147483647 then .ok (Int32.ofInt v) else .error (Fault.integerRange v)

/-- The 32-bit number that some octets hold. -/
def decodeInt32 (octets : Octets) : Except Failure Int32 := do
  toInt32 (← decodeInteger octets)

end DirectoryAccess.Ber
