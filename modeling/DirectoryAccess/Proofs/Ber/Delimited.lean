import Mathlib.Data.List.Infix
import DirectoryAccess.Proofs.Ber.Definite
import DirectoryAccess.Proofs.Ber.Reader

/-!
# Elements tell where they end

What has been read of a header does not change when further octets come behind it
(`Header.decode_append`), and a header is not accepted before its whole value is
there. So octets that are one element are one no more when they are cut short, at
whatever place, or when anything follows them.
-/

namespace DirectoryAccess.Ber

/-- A header is read as it is, whatever follows its value. -/
theorem Header.decode_append {octets : Octets} {head : Header} (h : decode octets = .ok head)
    (rest : Octets) : decode (octets ++ rest) = .ok head := by
  obtain ⟨field, value, behind, rfl, hread⟩ := decode_eq_ok_iff.mp h
  refine decode_eq_ok_iff.mpr ⟨field, value, behind ++ rest, ?_, hread⟩
  rw [List.cons_append, List.append_assoc, List.append_assoc]

namespace Element

variable {octets front longer : Octets} {element : Element}

/-- Octets that are one element are its header and its value, with nothing behind. -/
theorem exists_header_of_decode (h : decode octets = .ok element) :
    ∃ head, Header.decode octets = .ok head ∧ octets.length = head.width + head.size := by
  have hsplit := decode_eq_ok_iff.mp h
  cases hd : Header.decode octets with
  | error failure =>
      rw [split_of_decode_error hd] at hsplit
      cases hsplit
  | ok head =>
      refine ⟨head, rfl, ?_⟩
      have hle := (Header.le_length_of_decode hd).2
      rw [split_of_decode hd] at hsplit
      have hnil : octets.drop (head.width + head.size) = [] :=
        (Prod.mk.inj (Except.ok.inj hsplit)).2
      rw [List.drop_eq_nil_iff] at hnil
      omega

/-- An element that is cut short does not even have a header: that would be the header of the whole
element, and its value would not fit. -/
theorem header_error_of_decode (h : decode octets = .ok element) (hfront : front <+: octets)
    (hne : front ≠ octets) : ∃ failure, Header.decode front = .error failure := by
  cases hd : Header.decode front with
  | error failure => exact ⟨failure, rfl⟩
  | ok head =>
      obtain ⟨rest, rfl⟩ := hfront
      obtain ⟨whole, hwhole, hlength⟩ := exists_header_of_decode h
      rw [Header.decode_append hd rest] at hwhole
      obtain rfl := Except.ok.inj hwhole
      have hle := (Header.le_length_of_decode hd).2
      rw [List.length_append] at hlength
      have hrest : rest = [] := List.length_eq_zero_iff.mp (by omega)
      rw [hrest, List.append_nil] at hne
      exact absurd rfl hne

/-- Nothing may follow an element. -/
theorem decode_error_of_longer (h : decode octets = .ok element) (hlonger : octets <+: longer)
    (hne : longer ≠ octets) : ∃ failure, decode longer = .error failure := by
  cases hlong : decode longer with
  | error failure => exact ⟨failure, rfl⟩
  | ok element' =>
      obtain ⟨head, hd, -⟩ := exists_header_of_decode h
      obtain ⟨failure, hf⟩ := header_error_of_decode hlong hlonger (Ne.symm hne)
      rw [hd] at hf
      cases hf

end Element

namespace Reading

variable {r : Reader} {failure : Failure}

/-- Without a header no sequence is opened, whatever the limits. -/
theorem exists_openSequence_error (h : Header.decode r.window = .error failure) :
    ∃ cause, openSequence r = (.error cause, r) := by
  rcases Nat.lt_or_ge r.ends.length r.limits.depth with hdepth | hdepth
  · exact ⟨failure, openSequence_of_header_error hdepth (header_of_error h)⟩
  · exact ⟨_, openSequence_of_depth hdepth⟩

end Reading

end DirectoryAccess.Ber
