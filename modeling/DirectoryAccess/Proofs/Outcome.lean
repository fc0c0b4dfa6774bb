import DirectoryAccess.Outcome
import DirectoryAccess.Proofs.Ber.Shortest
import DirectoryAccess.Proofs.Ber.TwosComplement

/-!
# The grammar of outcomes

An outcome is a code and two texts, of which an empty one is none, and perhaps a list of places
to go on at (`Outcome.Grammatical`). It is read from the front of a response's elements, and what
is left stands behind it (`Outcome.exists_of_decode`). Whether the fourth element is the list is
told by its type alone, so an outcome is read where it stands if what follows does not have this
type (`Outcome.decode_append`).
-/

namespace DirectoryAccess

open Ber (Element HoldsInt32 decodeInt32_eq_ok_iff)
open Ber.Element (asTexts asText_eq_ok_iff)

/-! ## Texts -/

/-- A text that is absent if it is empty. -/
def present? (text : String) : Option String :=
  if text = "" then none else some text

/-- Octets of a text that may be absent. -/
inductive HoldsOptional (octets : Octets) : Option String → Prop
  /-- There are no octets. -/
  | absent (h : octets = []) : HoldsOptional octets none
  /-- The octets are those of a text that is not empty. -/
  | present {text : String} (hne : text ≠ "") (h : octets = Utf8.encode text) :
      HoldsOptional octets (some text)

/-- An element is a text exactly if it holds this text, which is absent if it is empty. -/
theorem Ber.Element.asText_iff_holdsOptional {e : Element} {text : String} :
    e.asText = .ok text ↔ HoldsOptional e.value (present? text) := by
  rw [asText_eq_ok_iff, present?]
  by_cases hempty : text = ""
  · rw [if_pos hempty, hempty]
    constructor
    · intro h
      exact .absent h
    · rintro ⟨h⟩
      exact h
  · rw [if_neg hempty]
    constructor
    · intro h
      exact .present hempty h
    · rintro (_ | ⟨-, h⟩)
      exact h

/-- An element that is a list of texts. -/
def Ber.Element.IsTexts (e : Element) (texts : List String) : Prop :=
  ∃ parts, e.asElements = .ok parts ∧
    List.Forall₂ (fun part text => part.value = Utf8.encode text) parts texts

/-- Texts are read from the element that holds them. -/
theorem Ber.Element.asTexts_eq_ok_iff {e : Element} {texts : List String} :
    e.asTexts = .ok texts ↔ e.IsTexts texts := by
  simp only [asTexts, IsTexts, bind_eq_ok_iff, mapM_eq_ok_iff, asText_eq_ok_iff]

/-! ## Outcomes -/

namespace Outcome

variable {α : Type} {outcome : Outcome} {urls : List String} {parts front rest : List Element}

/-- The name of the last entry that was found, if there is one. -/
def matchedDn? (outcome : Outcome) : Option String := present? outcome.matchedDn

/-- The message for people, if there is one. -/
def diagnostic? (outcome : Outcome) : Option String := present? outcome.diagnostic

/-- The elements of places to go on at: none, or one of their type that lists them. -/
inductive ReferralParts : List String → List Element → Prop
  /-- There is no list, and no place to go on at. -/
  | none : ReferralParts [] []
  /-- There is a list, which may be empty. -/
  | list {urls : List String} {part : Element} (htag : part.tag = referralsTag)
      (htexts : part.IsTexts urls) : ReferralParts urls [part]

/-- The elements of an outcome by the grammar. -/
inductive Grammatical (outcome : Outcome) : List Element → Prop
  /-- The code, the two texts, and perhaps the places to go on at. -/
  | intro {code matchedDn diagnostic : Element} {referrals : List Element}
      (hcode : HoldsInt32 code.value outcome.code.value)
      (hmatchedDn : HoldsOptional matchedDn.value outcome.matchedDn?)
      (hdiagnostic : HoldsOptional diagnostic.value outcome.diagnostic?)
      (hreferrals : ReferralParts outcome.referrals referrals) :
      Grammatical outcome (code :: matchedDn :: diagnostic :: referrals)

/-- The places to go on at are read from the elements in front of those that are left. -/
theorem exists_of_decodeReferrals (h : decodeReferrals parts = .ok (urls, rest)) :
    ∃ front, ReferralParts urls front ∧ parts = front ++ rest := by
  cases parts with
  | nil =>
      cases h
      exact ⟨[], .none, rfl⟩
  | cons part parts =>
      rw [decodeReferrals] at h
      split at h
      · rename_i htag
        obtain ⟨texts, htexts, h⟩ := explain_bind_eq_ok_iff.mp h
        cases h
        exact ⟨[part], .list htag (Element.asTexts_eq_ok_iff.mp htexts), rfl⟩
      · cases h
        exact ⟨[], .none, rfl⟩

/-- The places to go on at are read where they stand, unless what follows has their type. -/
theorem decodeReferrals_append (hfront : ReferralParts urls front)
    (hrest : ∀ part ∈ rest, part.tag ≠ referralsTag) :
    decodeReferrals (front ++ rest) = .ok (urls, rest) := by
  cases hfront with
  | none =>
      cases rest with
      | nil => rfl
      | cons part rest =>
          have hne := hrest part List.mem_cons_self
          rw [List.nil_append, decodeReferrals, if_neg hne, pure_eq_ok]
  | @list _ part htag htexts =>
      have hread : part.asTexts = .ok urls := Element.asTexts_eq_ok_iff.mpr htexts
      rw [List.singleton_append, decodeReferrals, if_pos htag, hread]
      rfl

/-- An outcome is read from the elements in front of those that are left. -/
theorem exists_of_decode (h : decode parts = .ok (outcome, rest)) :
    ∃ front, outcome.Grammatical front ∧ parts = front ++ rest := by
  unfold decode at h
  split at h
  · obtain ⟨code, hcode, h⟩ := explain_bind_eq_ok_iff.mp h
    obtain ⟨matchedDn, hmatchedDn, h⟩ := explain_bind_eq_ok_iff.mp h
    obtain ⟨diagnostic, hdiagnostic, h⟩ := explain_bind_eq_ok_iff.mp h
    obtain ⟨⟨urls, left⟩, hreferrals, h⟩ := bind_eq_ok_iff.mp h
    cases h
    obtain ⟨referrals, hparts, rfl⟩ := exists_of_decodeReferrals hreferrals
    exact ⟨_, .intro (decodeInt32_eq_ok_iff.mp hcode)
      (Element.asText_iff_holdsOptional.mp hmatchedDn)
      (Element.asText_iff_holdsOptional.mp hdiagnostic) hparts, rfl⟩
  · cases h

/-- An outcome is read where it stands, unless what follows has the type of places to go on at. -/
theorem decode_append (hfront : outcome.Grammatical front)
    (hrest : ∀ part ∈ rest, part.tag ≠ referralsTag) :
    decode (front ++ rest) = .ok (outcome, rest) := by
  obtain ⟨hcode, hmatchedDn, hdiagnostic, hreferrals⟩ := hfront
  rename_i code matchedDn diagnostic referrals
  have hcode : code.asInt32 = .ok outcome.code.value := decodeInt32_eq_ok_iff.mpr hcode
  have hmatchedDn : matchedDn.asText = .ok outcome.matchedDn :=
    Element.asText_iff_holdsOptional.mpr hmatchedDn
  have hdiagnostic : diagnostic.asText = .ok outcome.diagnostic :=
    Element.asText_iff_holdsOptional.mpr hdiagnostic
  simp only [List.cons_append, decode, hcode, hmatchedDn, hdiagnostic, explain_ok, ok_bind,
    decodeReferrals_append hreferrals hrest, pure_eq_ok]

/-- Let `next` read `a` exactly if it is given the outcome `outcome` with `back` behind it, and let
no element of `back` have the type of places to go on at. Then `a` is read from the elements of
`outcome` with `back` behind them. -/
theorem decode_bind_eq_ok_iff (outcome : Outcome) (back : List Element)
    {next : Outcome × List Element → Except Failure α} {a : α}
    (hback : ∀ part ∈ back, part.tag ≠ referralsTag)
    (hnext : ∀ o rest, next (o, rest) = .ok a ↔ o = outcome ∧ rest = back) :
    (decode parts >>= next) = .ok a ↔
      ∃ front, outcome.Grammatical front ∧ parts = front ++ back := by
  rw [bind_eq_ok_iff]
  constructor
  · rintro ⟨⟨o, rest⟩, hdecode, hread⟩
    obtain ⟨rfl, rfl⟩ := (hnext o rest).mp hread
    exact exists_of_decode hdecode
  · rintro ⟨front, hfront, rfl⟩
    exact ⟨(outcome, back), decode_append hfront hback, (hnext outcome back).mpr ⟨rfl, rfl⟩⟩

end Outcome

end DirectoryAccess
