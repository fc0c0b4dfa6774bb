import DirectoryAccess.Ber.Fault

/-!
# Lengths

A length below 128 is one octet. A longer one is an octet with the high bit set
that counts the octets of a big-endian number, which follow it. Writing uses the
fewest octets; reading accepts padded numbers too, but no more than four octets
of them, and no length that is left open.
-/

namespace DirectoryAccess.Ber

/-- A length in one of its two forms. -/
inductive Length
  /-- One octet that is the length itself. -/
  | short (value : UInt8)
  /-- A number with the count of its octets in front. -/
  | long (value : Nat)
  deriving DecidableEq, Repr

namespace Length

/-- The most octets that the number of a long form may have when it is read. -/
def maxOctets : Nat := 4

/-- The shorter form of a length. -/
def ofNat (n : Nat) : Length :=
  if n < 128 then .short (UInt8.ofNat n) else .long n

/-- The number of octets that a length announces. -/
def toNat : Length → Nat
  | short value => value.toNat
  | long value => value

/-- The octets of a length; in the long form they are as few as hold the number. -/
def encode : Length → Octets
  | short value => [value]
  | long value =>
    let digits := Octets.bigEndian value
    (0x80 ||| UInt8.ofNat digits.length) :: digits

/-- The length at the front of some octets, and how many of them it takes. -/
def decode : Octets → Except Failure (Length × Nat)
  | [] => .error Fault.noLength
  | b :: rest =>
    if b < 0x80 then .ok (.short b, 1)
    else
      let count := (b &&& 0x7F).toNat
      let digits := rest.take count
      if count = 0 then .error Fault.indefiniteLength
      else if maxOctets < count then .error (Fault.wideLength count)
      else if digits.length < count then
        .error (Fault.lengthCutShort (1 + count) (1 + digits.length))
      else .ok (.long (Octets.ofBigEndian digits), 1 + count)

/-- A length lies inside the octets that it was read from. -/
theorem le_length_of_decode {octets : Octets} {length : Length} {width : Nat}
    (h : decode octets = .ok (length, width)) : width ≤ octets.length := by
  cases octets with
  | nil => simp only [decode, reduceCtorEq] at h
  | cons b digits =>
    simp only [decode] at h
    repeat' split at h
    all_goals simp only [reduceCtorEq, Except.ok.injEq, Prod.mk.injEq] at h
    · simp only [List.length_cons]
      omega
    · rename_i hd
      simp only [List.length_take, List.length_cons] at hd ⊢
      omega

end Length

end DirectoryAccess.Ber
