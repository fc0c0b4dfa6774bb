import DirectoryAccess.Ber.Element

/-!
# Outcomes

What all responses begin with: a result code, the name of the entry that was
found last, a message for people, and places to go on at. An empty name or
message is the same as none, and an empty list of places is not sent.
-/

namespace DirectoryAccess

open Ber (Element Tag)

/-- How an operation ended. -/
structure Outcome where
  /-- The result as a number. -/
  code : ResultCode
  /-- The name of the last entry that was found, or nothing. -/
  matchedDn : String
  /-- A message for people, or nothing. -/
  diagnostic : String
  /-- The places to go on at. -/
  referrals : List String
  deriving DecidableEq, Repr

namespace Outcome

/-- The type of the list of places to go on at. -/
def referralsTag : UInt8 := 0xA3

/-- An outcome that is only a code. -/
def ofCode (code : ResultCode) : Outcome := ⟨code, "", "", []⟩

/-- The elements that a response with this outcome begins with. -/
def encode (outcome : Outcome) : List Element :=
  [.integer Tag.enumerated outcome.code.value.toInt, .text Tag.octetString outcome.matchedDn,
    .text Tag.octetString outcome.diagnostic] ++
    (if outcome.referrals.isEmpty then [] else [.texts referralsTag outcome.referrals])

/-- The places to go on at, where the next element holds them, and the elements behind it. -/
def decodeReferrals : List Element → Except Failure (List String × List Element)
  | [] => return ([], [])
  | element :: rest =>
    if element.tag = referralsTag then do
      return (← explain "cannot decode the referral URLs" element.asTexts, rest)
    else return ([], element :: rest)

/-- The outcome at the front of a response's elements, and the elements behind it. -/
def decode : List Element → Except Failure (Outcome × List Element)
  | code :: matchedDn :: diagnostic :: rest => do
    let code ← explain "cannot decode the result code" code.asInt32
    let matchedDn ← explain "cannot decode the matched DN" matchedDn.asText
    let diagnostic ← explain "cannot decode the diagnostic message" diagnostic.asText
    let (referrals, rest) ← decodeReferrals rest
    return (⟨⟨code⟩, matchedDn, diagnostic, referrals⟩, rest)
  | elements => .error (.elementCount "response" "at least 3" elements.length)

/-- A list of places to go on at in words. -/
def describeReferrals (referrals : List String) : String :=
  if referrals.isEmpty then ""
  else ", referralURLs=\x7b'" ++ "', '".intercalate referrals ++ "'\x7d"

/-- The name of the last entry that was found in words. -/
def describeMatchedDn (outcome : Outcome) : String :=
  if outcome.matchedDn.isEmpty then "" else s!", matchedDN='{outcome.matchedDn}'"

/-- The message for people in words. -/
def describeDiagnostic (outcome : Outcome) : String :=
  if outcome.diagnostic.isEmpty then "" else s!", diagnosticMessage='{outcome.diagnostic}'"

/-- An outcome in words. -/
def describe (outcome : Outcome) : String :=
  s!"resultCode={outcome.code.text}" ++ outcome.describeMatchedDn ++ outcome.describeDiagnostic ++
    describeReferrals outcome.referrals

end Outcome

end DirectoryAccess
