import DirectoryAccess.Ber.Fault

/-!
# Type octets

The type of an element is one octet: two bits of class, one bit that says whether
the value is made of further elements, and a number below 31. The number 31 would
announce a type of several octets, which is not supported.
-/

namespace DirectoryAccess.Ber

/-- The four classes of types. -/
inductive TagClass
  | universal
  | application
  | contextSpecific
  | reserved
  deriving DecidableEq, Repr

/-- The class in the two highest bits of a type octet. -/
def TagClass.ofOctet (b : UInt8) : TagClass :=
  if b < 0x40 then .universal
  else if b < 0x80 then .application
  else if b < 0xC0 then .contextSpecific
  else .reserved

/-- A type octet taken apart. -/
structure Tag where
  /-- The class of the type. -/
  tagClass : TagClass
  /-- Whether the value is made of further elements. -/
  constructed : Bool
  /-- The number of the type in its class. -/
  number : UInt8
  deriving DecidableEq, Repr

/-- Whether a type octet announces further type octets. -/
def isMultiOctet (b : UInt8) : Bool :=
  b &&& 0x1F == 0x1F

/-- Whether the value of an element of this type is made of further elements. -/
def isConstructed (b : UInt8) : Bool :=
  b &&& 0x20 != 0

namespace Tag

/-- Takes a type octet apart. -/
def ofOctet (b : UInt8) : Except Failure Tag :=
  if isMultiOctet b then .error (Fault.multiOctetType b)
  else .ok ⟨TagClass.ofOctet b, isConstructed b, b &&& 0x1F⟩

/-- The universal type of truth values. -/
def boolean : UInt8 := 0x01

/-- The universal type of numbers. -/
def integer : UInt8 := 0x02

/-- The universal type of octet strings. -/
def octetString : UInt8 := 0x04

/-- The universal type of the null. -/
def null : UInt8 := 0x05

/-- The universal type of enumerated values. -/
def enumerated : UInt8 := 0x0A

/-- The universal type of sequences. -/
def sequence : UInt8 := 0x30

/-- The universal type of sets. -/
def set : UInt8 := 0x31

end Tag

end DirectoryAccess.Ber
