import DirectoryAccess.Octets

/-!
# UTF-8

Text travels as UTF-8. Reading goes octet by octet: a lead octet fixes how many
continuation octets follow and the range of the first of them, which is what
keeps out overlong forms, surrogates and numbers past `U+10FFFF`. The octets read
so far for one character are a `Partial`; where the next octet does not extend
it, they are a maximal ill-formed prefix. Strict reading reports the first such
prefix by width and place (`decode`), lenient reading puts `U+FFFD` in the place
of each (`decodeLossy`).
-/

namespace DirectoryAccess.Utf8

/-- Why a string of octets is not UTF-8. -/
inductive Fault
  /-- The `width` octets from `index` on begin no character. -/
  | illFormed (width index : Nat)
  /-- The octets end inside the character that begins at `index`. -/
  | cutShort (index : Nat)
  deriving DecidableEq, Repr

/-- The wording of a fault. -/
def Fault.message : Fault → String
  | .illFormed width index => s!"invalid utf-8 sequence of {width} bytes from index {index}"
  | .cutShort index => s!"incomplete utf-8 byte sequence from index {index}"

/-- A character of which some octets have been read. -/
structure Partial where
  /-- Least octet that may come next. -/
  low : UInt8
  /-- Greatest octet that may come next. -/
  high : UInt8
  /-- Octets still to come after the next one. -/
  missing : Nat
  /-- The bits read so far. -/
  bits : Nat
  /-- Octets read so far. -/
  width : Nat
  deriving DecidableEq, Repr

/-- What one more octet makes of the character being read. -/
inductive Step
  /-- It ends the character. -/
  | char (c : Char)
  /-- It leaves the character unfinished. -/
  | unfinished (p : Partial)
  /-- It cannot stand here. -/
  | refused
  deriving DecidableEq, Repr

/-- The octet that begins a character. -/
def Step.lead (b : UInt8) : Step :=
  if b < 0x80 then .char (Char.ofNat b.toNat)
  else if b < 0xC2 then .refused
  else if b < 0xE0 then .unfinished ⟨0x80, 0xBF, 0, b.toNat % 32, 1⟩
  else if b = 0xE0 then .unfinished ⟨0xA0, 0xBF, 1, 0, 1⟩
  else if b = 0xED then .unfinished ⟨0x80, 0x9F, 1, 13, 1⟩
  else if b < 0xF0 then .unfinished ⟨0x80, 0xBF, 1, b.toNat % 16, 1⟩
  else if b = 0xF0 then .unfinished ⟨0x90, 0xBF, 2, 0, 1⟩
  else if b < 0xF4 then .unfinished ⟨0x80, 0xBF, 2, b.toNat % 8, 1⟩
  else if b = 0xF4 then .unfinished ⟨0x80, 0x8F, 2, 4, 1⟩
  else .refused

/-- A further octet of a character; after the second one, any continuation octet will do. -/
def Partial.extend (p : Partial) (b : UInt8) : Step :=
  if p.low ≤ b ∧ b ≤ p.high then
    let bits := p.bits * 64 + b.toNat % 64
    match p.missing with
    | 0 => .char (Char.ofNat bits)
    | missing + 1 => .unfinished ⟨0x80, 0xBF, missing, bits, p.width + 1⟩
  else .refused

/-- Reads on from a character begun at `index`, with the text so far held backwards. -/
def decodeFrom (index : Nat) (text : List Char) : Option Partial → Octets → Except Fault (List Char)
  | none, [] => .ok text.reverse
  | some _, [] => .error (.cutShort index)
  | none, b :: rest =>
    match Step.lead b with
    | .char c => decodeFrom (index + 1) (c :: text) none rest
    | .unfinished p => decodeFrom index text (some p) rest
    | .refused => .error (.illFormed 1 index)
  | some p, b :: rest =>
    match p.extend b with
    | .char c => decodeFrom (index + p.width + 1) (c :: text) none rest
    | .unfinished q => decodeFrom index text (some q) rest
    | .refused => .error (.illFormed p.width index)

/-- The text that the octets spell, or the first fault in them. -/
def decode (octets : Octets) : Except Fault String :=
  (decodeFrom 0 [] none octets).map String.ofList

/-- The octets that spell a text. -/
def encode (text : String) : Octets :=
  text.toList.flatMap String.utf8EncodeChar

/-- The character that stands for octets that are no text. -/
def replacement : Char := '\uFFFD'

/-- Reads on leniently; the octet that breaks a character off is read afresh. -/
def decodeLossyFrom (text : List Char) : Option Partial → Octets → List Char
  | none, [] => text.reverse
  | some _, [] => (replacement :: text).reverse
  | none, b :: rest =>
    match Step.lead b with
    | .char c => decodeLossyFrom (c :: text) none rest
    | .unfinished p => decodeLossyFrom text (some p) rest
    | .refused => decodeLossyFrom (replacement :: text) none rest
  | some p, b :: rest =>
    match p.extend b with
    | .char c => decodeLossyFrom (c :: text) none rest
    | .unfinished q => decodeLossyFrom text (some q) rest
    | .refused =>
      match Step.lead b with
      | .char c => decodeLossyFrom (c :: replacement :: text) none rest
      | .unfinished q => decodeLossyFrom (replacement :: text) (some q) rest
      | .refused => decodeLossyFrom (replacement :: replacement :: text) none rest

/-- The text that the octets spell, each maximal ill-formed prefix replaced by one `U+FFFD`. -/
def decodeLossy (octets : Octets) : String :=
  String.ofList (decodeLossyFrom [] none octets)

end DirectoryAccess.Utf8
