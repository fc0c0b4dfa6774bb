import DirectoryAccess.Ber.Integer
import DirectoryAccess.Ber.Length
import DirectoryAccess.Ber.Tag

/-!
# Elements

An element is a type octet and a value. It is written as the type, the length of
the value and the value. Reading starts with the `Header`, the type and the
length; `split` takes one element off the front of some octets and always makes
progress (`length_lt_of_split`), which is why a value can be split into all the
elements that it is made of. A value can also be looked at as a number, a text or
a truth value, whatever the type says, because the protocol carries all of them
under types of its own.
-/

namespace DirectoryAccess.Ber

/-- What stands in front of a value. -/
structure Header where
  /-- The type octet. -/
  tag : UInt8
  /-- The number of octets of the type and the length. -/
  width : Nat
  /-- The number of octets of the value. -/
  size : Nat
  deriving DecidableEq, Repr

/-- The header at the front of some octets, which hold the whole value behind it. -/
def Header.decode : Octets → Except Failure Header
  | [] => .error Fault.noType
  | tag :: rest =>
    if isMultiOctet tag then .error (Fault.multiOctetType tag)
    else
      match Length.decode rest with
      | .error failure => .error failure
      | .ok (length, width) =>
        let present := ((rest.drop width).take length.toNat).length
        if present < length.toNat then .error (Fault.overrun tag length.toNat present)
        else .ok ⟨tag, 1 + width, length.toNat⟩

/-- A header and its value lie inside the octets that it was read from. -/
theorem Header.le_length_of_decode {octets : Octets} {header : Header}
    (h : Header.decode octets = .ok header) :
    0 < header.width ∧ header.width + header.size ≤ octets.length := by
  cases octets with
  | nil => simp only [Header.decode, reduceCtorEq] at h
  | cons tag rest =>
    simp only [Header.decode] at h
    split at h
    · simp only [reduceCtorEq] at h
    · split at h
      · simp only [reduceCtorEq] at h
      · rename_i length width hl
        split at h
        · simp only [reduceCtorEq] at h
        · rename_i hp
          obtain rfl := Except.ok.inj h
          simp only [List.length_take, List.length_drop] at hp
          have hw := Length.le_length_of_decode hl
          simp only [List.length_cons]
          omega

/-- A type octet and a value. -/
structure Element where
  /-- The type octet. -/
  tag : UInt8
  /-- The octets of the value. -/
  value : Octets
  deriving DecidableEq, Repr, Inhabited

namespace Element

/-! ## Octets -/

/-- The octets of an element. -/
def encode (element : Element) : Octets :=
  element.tag :: ((Length.ofNat element.value.length).encode ++ element.value)

/-- The number of octets that an element takes. -/
def encodedLength (element : Element) : Nat :=
  1 + (Length.ofNat element.value.length).encode.length + element.value.length

/-- Takes one element off the front of some octets. -/
def split (octets : Octets) : Except Failure (Element × Octets) :=
  match Header.decode octets with
  | .error failure => .error failure
  | .ok header =>
    let rest := octets.drop header.width
    .ok (⟨header.tag, rest.take header.size⟩, rest.drop header.size)

/-- What is left behind an element that is split off is shorter than what there was. -/
theorem length_lt_of_split {octets rest : Octets} {element : Element}
    (h : split octets = .ok (element, rest)) : rest.length < octets.length := by
  simp only [split] at h
  split at h
  · simp only [reduceCtorEq] at h
  · rename_i header hd
    simp only [Except.ok.injEq, Prod.mk.injEq] at h
    have hw := Header.le_length_of_decode hd
    rw [← h.2, List.length_drop, List.length_drop]
    omega

/-- The element that some octets are, with nothing behind it. -/
def decode (octets : Octets) : Except Failure Element :=
  match split octets with
  | .error failure => .error failure
  | .ok (element, []) => .ok element
  | .ok (_, rest) => .error (Fault.trailing rest.length)

/-- Takes elements off the front until nothing is left; those found so far are held backwards. -/
def splitAll (found : List Element) (octets : Octets) : Except Failure (List Element) :=
  if octets.isEmpty then .ok found.reverse
  else
    match h : split octets with
    | .error failure => .error failure
    | .ok (element, rest) =>
      have : rest.length < octets.length := length_lt_of_split h
      splitAll (element :: found) rest
termination_by octets.length

/-! ## Building elements -/

/-- A null. -/
def null (tag : UInt8) : Element := ⟨tag, []⟩

/-- A truth value. -/
def boolean (tag : UInt8) (b : Bool) : Element := ⟨tag, [if b then 0xFF else 0x00]⟩

/-- A number. -/
def integer (tag : UInt8) (v : Int) : Element := ⟨tag, encodeInteger v⟩

/-- A text. -/
def text (tag : UInt8) (s : String) : Element := ⟨tag, Utf8.encode s⟩

/-- An element made of other elements, in order. -/
def sequence (tag : UInt8) (elements : List Element) : Element := ⟨tag, elements.flatMap encode⟩

/-- A sequence of texts, in order. -/
def texts (tag : UInt8) (strings : List String) : Element :=
  sequence tag (strings.map (text Tag.octetString))

/-! ## Looking at values -/

/-- The elements that the value is made of. -/
def asElements (element : Element) : Except Failure (List Element) :=
  splitAll [] element.value

/-- The value as a truth value; every octet but zero is true. -/
def asBool (element : Element) : Except Failure Bool :=
  match element.value with
  | [b] => .ok (b != 0)
  | value => .error (Fault.booleanSize value.length)

/-- The value as that of a null. -/
def asNull (element : Element) : Except Failure Unit :=
  if element.value.isEmpty then .ok () else .error (Fault.nullSize element.value.length)

/-- The value as a number of at most 64 bits. -/
def asInteger (element : Element) : Except Failure Int :=
  decodeInteger element.value

/-- The value as a number of 32 bits. -/
def asInt32 (element : Element) : Except Failure Int32 :=
  decodeInt32 element.value

/-- The value as a text. -/
def asText (element : Element) : Except Failure String :=
  decodeText element.value

/-- The value as a sequence of texts. -/
def asTexts (element : Element) : Except Failure (List String) := do
  (← element.asElements).mapM asText

/-- Checks the type. -/
def expect (element : Element) (tag : UInt8) : Except Failure Unit :=
  if element.tag = tag then .ok () else .error (Fault.typeMismatch tag element.tag)

/-- The type and the value in hexadecimal. -/
def describe (element : Element) : String :=
  s!"BerElement(type={showTag element.tag}, value={Octets.hex element.value})"

end Element

end DirectoryAccess.Ber
