import DirectoryAccess.Matching.Rule
import DirectoryAccess.Text.Lowercase

/-!
# The standard rules

Texts with or without regard to case, octet strings, strings of digits and truth
values. A rule is found by any of its names, in any case and with blanks around
it, or by the object identifier that goes with the name.
-/

namespace DirectoryAccess.Matching

/-- The text of a value that has to be one. -/
def valueText (value : Octets) : Except Failure String :=
  match Utf8.decode value with
  | .ok text => .ok text
  | .error fault => .error (.invalidSyntax s!"value is not valid UTF-8: {fault.message}")

/-- Spaces are insignificant and so is case. -/
def caseIgnore : Rule where
  ids :=
    [⟨.equality, "caseIgnoreMatch", "2.5.13.2"⟩,
      ⟨.ordering, "caseIgnoreOrderingMatch", "2.5.13.3"⟩,
      ⟨.substring, "caseIgnoreSubstringsMatch", "2.5.13.4"⟩]
  normalize value := do
    return Utf8.encode (lowercase (collapseSpaces .whole (← valueText value)))
  normalizePart place value := do
    return Utf8.encode (lowercase (collapseSpaces (.of place) (← valueText value)))

/-- Spaces are insignificant. -/
def caseExact : Rule where
  ids :=
    [⟨.equality, "caseExactMatch", "2.5.13.5"⟩,
      ⟨.ordering, "caseExactOrderingMatch", "2.5.13.6"⟩,
      ⟨.substring, "caseExactSubstringsMatch", "2.5.13.7"⟩]
  normalize value := do
    return Utf8.encode (collapseSpaces .whole (← valueText value))
  normalizePart place value := do
    return Utf8.encode (collapseSpaces (.of place) (← valueText value))

/-- Every octet counts. -/
def octetString : Rule where
  ids :=
    [⟨.equality, "octetStringMatch", "2.5.13.17"⟩,
      ⟨.ordering, "octetStringOrderingMatch", "2.5.13.18"⟩,
      ⟨.substring, "octetStringSubstringsMatch", "2.5.13.19"⟩]
  normalize value := .ok value
  normalizePart _ value := .ok value

/-- Digits without the spaces among them, from the octet at `index` on; those in front of it are
held backwards. -/
def digitsFrom (index : Nat) (digits : Octets) : Octets → Except Failure Octets
  | [] => .ok digits.reverse
  | b :: rest =>
    if b = 0x20 then digitsFrom (index + 1) digits rest
    else if 0x30 ≤ b ∧ b ≤ 0x39 then digitsFrom (index + 1) (b :: digits) rest
    else
      .error (.invalidSyntax
        s!"numeric string has invalid character 0x{hexOctet b} at position {index}")

/-- Only digits count; spaces may stand among them. -/
def numericString : Rule where
  ids :=
    [⟨.equality, "numericStringMatch", "2.5.13.8"⟩,
      ⟨.ordering, "numericStringOrderingMatch", "2.5.13.9"⟩,
      ⟨.substring, "numericStringSubstringsMatch", "2.5.13.10"⟩]
  normalize value := digitsFrom 0 [] value
  normalizePart _ value := digitsFrom 0 [] value

/-- An octet with a small letter of ASCII made a capital one. -/
def upperOctet (b : UInt8) : UInt8 :=
  if 0x61 ≤ b ∧ b ≤ 0x7A then b - 0x20 else b

/-- The word for true. -/
def trueWord : Octets := [0x54, 0x52, 0x55, 0x45]

/-- The word for false. -/
def falseWord : Octets := [0x46, 0x41, 0x4C, 0x53, 0x45]

/-- Two words are values, in any case, and they have no parts. -/
def boolean : Rule where
  ids := [⟨.equality, "booleanMatch", "2.5.13.13"⟩]
  normalize value :=
    if value.map upperOctet = trueWord then .ok trueWord
    else if value.map upperOctet = falseWord then .ok falseWord
    else .error (.invalidSyntax s!"'{Utf8.decodeLossy value}' is not a boolean value")
  normalizePart _ _ :=
    .error (.invalidSyntax "substring matching is not supported for boolean values")

/-- All rules that can be asked for by name. -/
def standardRules : List Rule := [caseIgnore, caseExact, octetString, numericString, boolean]

/-- The rule for attributes that name none. -/
def defaultRule : Rule := caseIgnore

/-- The characters with the property `White_Space`. -/
def blanks : CharProperty :=
  [(0x0009, 0x000D), (0x0020, 0x0020), (0x0085, 0x0085), (0x00A0, 0x00A0), (0x1680, 0x1680),
    (0x2000, 0x200A), (0x2028, 0x2029), (0x202F, 0x202F), (0x205F, 0x205F), (0x3000, 0x3000)]

/-- A text without the blanks at its ends. -/
def trimBlanks (text : String) : String :=
  let inner := text.toList.dropWhile blanks.holds
  String.ofList (inner.reverse.dropWhile blanks.holds).reverse

/-- The rule with the given name or object identifier. -/
def selectRule? (nameOrOid : String) : Option Rule :=
  let key := lowercaseAscii (trimBlanks nameOrOid)
  standardRules.find? fun rule =>
    rule.ids.any fun id => lowercaseAscii id.name == key || id.oid == key

end DirectoryAccess.Matching
