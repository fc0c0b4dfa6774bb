import DirectoryAccess.Proofs.Matching.TextPatterns
import Mathlib.Algebra.Order.BigOperators.Group.List
import Mathlib.Algebra.Order.Group.Nat

/-!
# Without regard to case

Values that are equal with regard to case are equal without it. Patterns are another
matter. The small form of a capital sigma depends on whether it ends a word, and at
an end of a part the word need not end where the part does. So a text can match a
pattern with regard to case and not match it without (`finalSigma_notFound`). That
happens to the patterns that have a capital sigma in such a place and to no others
(`caseIgnore_of_caseExact`).
-/

namespace DirectoryAccess.Matching

open Utf8 (encodeChars)

/-- Whether no part of a pattern has a capital sigma at an end of which the word may go on beyond
the part. -/
structure TextPattern.Settled (p : TextPattern) : Prop where
  /-- The beginning does not end on one. -/
  initial : ¬ EndsOnSigma p.keptInitial
  /-- No part in between ends on one. -/
  any_ends : ∀ part ∈ p.keptAny, ¬ EndsOnSigma part
  /-- No part in between begins on one. -/
  any_begins : ∀ part ∈ p.keptAny, ¬ BeginsOnSigma part
  /-- The end does not begin on one. -/
  final : ¬ BeginsOnSigma p.keptFinal

/-! ## Parts that stay where they are -/

/-- Parts with no capital sigma at an end are found in lower case wherever they are found. -/
theorem Follow.lower {final text : List Char} {parts : List (List Char)}
    (hends : ∀ part ∈ parts, ¬ EndsOnSigma part) (hbegins : ∀ part ∈ parts, ¬ BeginsOnSigma part)
    (hfinal : ¬ BeginsOnSigma final) (h : Follow final parts text) (before : List Char) :
    Follow (lowerBetween [] [] final) (parts.map (lowerBetween [] []))
      (lowerBetween before [] text) := by
  induction parts generalizing text before with
  | nil =>
      obtain ⟨front, rfl⟩ := h
      have hlast : lowerBetween (front.reverse ++ before) [] final = lowerBetween [] [] final :=
        lowerBetween_eq (fun _ => rfl) fun hsigma => absurd hsigma hfinal
      rw [lowerBetween_append, hlast]
      exact List.suffix_append _ _
  | cons part parts ih =>
      obtain ⟨hpartEnds, hrestEnds⟩ := List.forall_mem_cons.mp hends
      obtain ⟨hpartBegins, hrestBegins⟩ := List.forall_mem_cons.mp hbegins
      obtain ⟨gap, rest, rfl, hrest⟩ := h
      have hpart : lowerBetween (gap.reverse ++ before) (rest ++ []) part =
          lowerBetween [] [] part :=
        lowerBetween_eq (fun hsigma => absurd hsigma hpartEnds)
          fun hsigma => absurd hsigma hpartBegins
      rw [lowerBetween_append, lowerBetween_append, hpart]
      exact ⟨_, _, rfl, ih hrestEnds hrestBegins hrest _⟩

/-- A settled pattern can be placed in lower case where it can be placed. -/
theorem TextPattern.Settled.placed {p : TextPattern} (hp : p.Settled) {text : List Char}
    (h : Rule.Placed id text p) : Rule.Placed (lowerBetween [] []) text p := by
  obtain ⟨rest, htext, hfollow⟩ := h
  rw [List.map_id] at hfollow
  have hinitial : lowerBetween [] (rest ++ []) p.keptInitial = lowerBetween [] [] p.keptInitial :=
    lowerBetween_eq (fun hsigma => absurd hsigma hp.initial) fun _ => rfl
  have hkept : Edges.whole.keep text = p.keptInitial ++ rest := htext
  refine ⟨lowerBetween (p.keptInitial.reverse ++ []) [] rest, ?_, ?_⟩
  · rw [hkept, lowerBetween_append, hinitial]
  · exact hfollow.lower hp.any_ends hp.any_begins hp.final _

/-! ## Parts that do not

Every pattern can be placed in a text made of its parts with a short word between
neighbours. If that word has a letter at one end, every sigma at that end of a part
takes its other form there, and none takes it back; so in lower case the text has
fewer sigmas of the one form than the parts have together. -/

/-- Parts with a separator in front of each of them and of the end. -/
def spaced (sep : List Char) (parts : List (List Char)) (final : List Char) : List Char :=
  (parts.map (sep ++ ·)).flatten ++ (sep ++ final)

theorem spaced_cons (sep : List Char) (part : List Char) (parts : List (List Char))
    (final : List Char) :
    spaced sep (part :: parts) final = sep ++ (part ++ spaced sep parts final) := by
  simp only [spaced, List.map_cons, List.flatten_cons, List.append_assoc]

/-- Spaced parts follow one another to the end. -/
theorem follow_spaced (sep : List Char) (parts : List (List Char)) (final : List Char) :
    Follow final parts (spaced sep parts final) := by
  induction parts with
  | nil => exact List.suffix_append sep final
  | cons part parts ih => exact ⟨sep, _, spaced_cons sep part parts final, ih⟩

/-- A text that has the parts of a pattern, with a separator between neighbours. -/
def TextPattern.spelled (p : TextPattern) (sep : List Char) : List Char :=
  p.initial.getD [] ++ spaced sep p.any (p.final.getD [])

section Spelled

variable {sep : List Char}

/-- Between words parts are squeezed as they are by themselves. -/
theorem squeeze_spaced (h : IsWord sep) (inRun : Bool) (parts : List (List Char))
    (final : List Char) :
    squeeze inRun (spaced sep parts final) =
      spaced sep (parts.map (squeeze false)) (squeeze false final) := by
  induction parts generalizing inRun with
  | nil => exact squeeze_word h inRun final
  | cons part parts ih =>
      rw [List.map_cons, spaced_cons, spaced_cons, squeeze_word h, squeeze_append, ih]

/-- Of the parts of a pattern the same is kept in a text that has words between them. -/
theorem keep_spelled (h : IsWord sep) (p : TextPattern) :
    Edges.whole.keep (p.spelled sep) = p.keptInitial ++ spaced sep p.keptAny p.keptFinal := by
  have hne : spaced sep (p.any.map (squeeze false)) (squeeze false (p.final.getD [])) ≠ [] :=
    List.append_ne_nil_of_right_ne_nil _ (List.append_ne_nil_of_left_ne_nil h.ne_nil _)
  have hlast : sep ++ squeeze false (p.final.getD []) ≠ [] :=
    List.append_ne_nil_of_left_ne_nil h.ne_nil _
  change trimEnd (squeeze true (p.spelled sep)) = _
  rw [TextPattern.spelled, squeeze_append, squeeze_spaced h, trimEnd_append _ hne, spaced,
    trimEnd_append _ hlast, trimEnd_word_append h]
  rfl

/-- The parts of a pattern are found where they were put, if the separator is a word. -/
theorem placed_spelled (h : IsWord sep) (p : TextPattern) :
    Rule.Placed id (p.spelled sep) p := by
  refine ⟨_, keep_spelled h p, ?_⟩
  rw [List.map_id]
  exact follow_spaced sep p.keptAny p.keptFinal

/-- A word that is its own lower-case form and hides what is beyond it. -/
structure Separates (sep : List Char) : Prop where
  /-- It is a word. -/
  isWord : IsWord sep
  /-- Some of its characters are not case-ignorable. -/
  hides : sep.all caseIgnorableChars.holds = false
  /-- It has no capital sigma. -/
  sigma_not_mem : 'Σ' ∉ sep
  /-- It is in lower case. -/
  lower : sep.flatMap lowerChar = sep

/-- Whether a cased character comes first in a separator does not depend on what is behind it. -/
theorem Separates.meetsCased_append (h : Separates sep) (after : List Char) :
    meetsCased (sep ++ after) = meetsCased sep := by
  rw [DirectoryAccess.meetsCased_append, h.hides, if_neg Bool.false_ne_true]

/-- Read backwards, it does not depend on what is in front of the separator. -/
theorem Separates.meetsCased_reverse_append (h : Separates sep) (before : List Char) :
    meetsCased (sep.reverse ++ before) = meetsCased sep.reverse := by
  rw [DirectoryAccess.meetsCased_append, List.all_reverse, h.hides, if_neg Bool.false_ne_true]

/-- Whether a cased character comes first in spaced parts depends on the separator alone. -/
theorem Separates.meetsCased_spaced (h : Separates sep) (parts : List (List Char))
    (final : List Char) : meetsCased (spaced sep parts final ++ []) = meetsCased sep := by
  rw [List.append_nil]
  cases parts with
  | nil => exact h.meetsCased_append final
  | cons part parts => rw [spaced_cons, h.meetsCased_append]

/-- A character that separators do not have is in a text as often as in its parts, each in lower
case between separators. -/
theorem count_spaced (h : Separates sep) {c : Char} (hc : c ∉ sep) (before : List Char)
    (parts : List (List Char)) (final : List Char) :
    (lowerBetween before [] (spaced sep parts final)).count c =
      (parts.map fun part => (lowerBetween sep.reverse sep part).count c).sum +
        (lowerBetween sep.reverse [] final).count c := by
  have hsep (before after : List Char) : (lowerBetween before after sep).count c = 0 := by
    rw [lowerBetween_of_not_mem h.sigma_not_mem, h.lower]
    exact List.count_eq_zero.mpr hc
  have hbefore := h.meetsCased_reverse_append
  induction parts generalizing before with
  | nil =>
      have hfinal : lowerBetween (sep.reverse ++ before) [] final =
          lowerBetween sep.reverse [] final := lowerBetween_congr (hbefore before) rfl final
      rw [List.map_nil, List.sum_nil, Nat.zero_add, spaced, List.map_nil, List.flatten_nil,
        List.nil_append, lowerBetween_append, List.count_append, hsep, Nat.zero_add, hfinal]
  | cons part parts ih =>
      have hpart : lowerBetween (sep.reverse ++ before) (spaced sep parts final ++ []) part =
          lowerBetween sep.reverse sep part :=
        lowerBetween_congr (hbefore before) (h.meetsCased_spaced parts final) part
      rw [spaced_cons, lowerBetween_append, lowerBetween_append, List.count_append,
        List.count_append, hsep, Nat.zero_add, hpart, ih, List.map_cons, List.sum_cons,
        Nat.add_assoc]

/-- A character that no part of a pattern has more often between separators than by itself, no
part has less often, either, if the parts are found. -/
theorem count_le_of_placed (h : Separates sep) {c : Char} (hc : c ∉ sep) {p : TextPattern}
    (hplaced : Rule.Placed (lowerBetween [] []) (p.spelled sep) p)
    (hinitial : (lowerBetween [] sep p.keptInitial).count c ≤
      (lowerBetween [] [] p.keptInitial).count c)
    (hany : ∀ part ∈ p.keptAny, (lowerBetween sep.reverse sep part).count c ≤
      (lowerBetween [] [] part).count c)
    (hfinal : (lowerBetween sep.reverse [] p.keptFinal).count c ≤
      (lowerBetween [] [] p.keptFinal).count c) :
    (lowerBetween [] [] p.keptInitial).count c ≤ (lowerBetween [] sep p.keptInitial).count c ∧
      (∀ part ∈ p.keptAny, (lowerBetween [] [] part).count c ≤
        (lowerBetween sep.reverse sep part).count c) ∧
      (lowerBetween [] [] p.keptFinal).count c ≤
        (lowerBetween sep.reverse [] p.keptFinal).count c := by
  obtain ⟨rest, hwhole, hfollow⟩ := hplaced
  have hroom : (p.keptAny.map fun part => (lowerBetween [] [] part).count c).sum +
      (lowerBetween [] [] p.keptFinal).count c ≤ rest.count c := by
    have hsum := hfollow.sum_le (List.count c) fun _ _ => List.count_append
    rwa [List.map_map] at hsum
  have hcount : (lowerBetween [] sep p.keptInitial).count c +
      ((p.keptAny.map fun part => (lowerBetween sep.reverse sep part).count c).sum +
        (lowerBetween sep.reverse [] p.keptFinal).count c) =
      (lowerBetween [] [] p.keptInitial).count c + rest.count c := by
    have hfirst : lowerBetween [] (spaced sep p.keptAny p.keptFinal ++ []) p.keptInitial =
        lowerBetween [] sep p.keptInitial :=
      lowerBetween_congr rfl (h.meetsCased_spaced p.keptAny p.keptFinal) p.keptInitial
    rw [← List.count_append, ← hwhole, keep_spelled h.isWord, lowerBetween_append, hfirst,
      List.count_append, count_spaced h hc]
  have hsum := List.sum_le_sum hany
  refine ⟨by omega, fun part hpart => ?_, by omega⟩
  by_contra hless
  have hlt := List.sum_lt_sum _ _ hany ⟨part, hpart, Nat.lt_of_not_le hless⟩
  omega

/-- A letter in front and a digit behind. -/
theorem separates_letterDigit : Separates ['a', '0'] where
  isWord := ⟨List.cons_ne_nil _ _, by decide⟩
  hides := by decide +kernel
  sigma_not_mem := by decide
  lower := by decide +kernel

/-- A digit in front and a letter behind. -/
theorem separates_digitLetter : Separates ['0', 'a'] where
  isWord := ⟨List.cons_ne_nil _ _, by decide⟩
  hides := by decide +kernel
  sigma_not_mem := by decide
  lower := by decide +kernel

theorem meetsCased_letter : meetsCased ['a', '0'] = true := by decide +kernel

theorem meetsCased_digit : meetsCased ['0', 'a'] = false := by decide +kernel

/-- A pattern that can be placed in lower case wherever it can be placed is settled. In the text of
its parts with a letter behind each, those that end on a capital sigma lack a final one; with a
letter in front of each, those that begin on one lack a medial one. -/
theorem settled_of_placed {p : TextPattern}
    (h : ∀ text, Rule.Placed id text p → Rule.Placed (lowerBetween [] []) text p) :
    p.Settled := by
  obtain ⟨hinitial, hanyEnds, -⟩ := count_le_of_placed separates_letterDigit (c := 'ς') (by decide)
    (h _ (placed_spelled separates_letterDigit.isWord p))
    (count_lowerBetween_le_of_before rfl)
    (fun part _ => count_lowerBetween_le_of_before meetsCased_digit)
    (count_lowerBetween_le_of_before meetsCased_digit)
  obtain ⟨-, hanyBegins, hfinal⟩ := count_le_of_placed separates_digitLetter (c := 'σ') (by decide)
    (h _ (placed_spelled separates_digitLetter.isWord p))
    (count_lowerBetween_le_of_after meetsCased_digit)
    (fun part _ => count_lowerBetween_le_of_after meetsCased_digit)
    (count_lowerBetween_le_of_after rfl)
  constructor
  · intro hsigma
    have hlt : (lowerBetween [] ['a', '0'] p.keptInitial).count 'ς' < _ :=
      count_lowerBetween_lt_of_ends hsigma rfl meetsCased_letter
    exact absurd hinitial (Nat.not_le_of_lt hlt)
  · intro part hpart hsigma
    have hlt := count_lowerBetween_lt_of_ends hsigma meetsCased_digit meetsCased_letter
    exact absurd (hanyEnds part hpart) (Nat.not_le_of_lt hlt)
  · intro part hpart hsigma
    have hlt := count_lowerBetween_lt_of_begins hsigma meetsCased_letter meetsCased_digit
    exact absurd (hanyBegins part hpart) (Nat.not_le_of_lt hlt)
  · intro hsigma
    have hlt : (lowerBetween ['a', '0'] [] p.keptFinal).count 'σ' < _ :=
      count_lowerBetween_lt_of_begins hsigma meetsCased_letter rfl
    exact absurd hfinal (Nat.not_le_of_lt hlt)

end Spelled

/-! ## With and without regard to case -/

/-- Values that match with regard to case match without regard to it. -/
theorem caseIgnore_valuesMatch {a b : Octets} (h : caseExact.valuesMatch a b = .ok true) :
    caseIgnore.valuesMatch a b = .ok true := by
  obtain ⟨s, t, hs, ht, hwords⟩ := (caseExact_ofTexts.valuesMatch_eq_ok_iff a b true).mp h
  have hsame : joinWords (words s.toList) = joinWords (words t.toList) := hwords.mpr rfl
  refine (caseIgnore_ofTexts.valuesMatch_eq_ok_iff a b true).mpr ⟨s, t, hs, ht, ?_⟩
  rw [hsame]
  exact iff_of_true rfl rfl

/-- **Case that does not count.** Values that are equal with regard to case are equal without it.
A pattern is found without regard to case in every value in which it is found with regard to it
exactly if, where its parts are texts, none of them has a capital sigma at an end of which the word
may go on. With other parts it is found in no value, and nothing is asked of it. -/
theorem caseIgnore_of_caseExact (a b : Octets) (pattern : SubstringPattern) :
    (caseExact.valuesMatch a b = .ok true → caseIgnore.valuesMatch a b = .ok true) ∧
      ((∀ value, caseExact.matchesPattern value pattern = .ok true →
          caseIgnore.matchesPattern value pattern = .ok true) ↔
        ∀ p : TextPattern, pattern = p.octets → p.Settled) := by
  refine ⟨caseIgnore_valuesMatch, ?_, ?_⟩
  · rintro hall p rfl
    apply settled_of_placed
    intro text hplaced
    have hexact := (caseExact_ofTexts.matchesPattern_iff text p).mpr hplaced
    exact (caseIgnore_ofTexts.matchesPattern_iff text p).mp (hall _ hexact)
  · intro hsettled value hexact
    obtain ⟨text, p, rfl, rfl⟩ := caseExact_ofTexts.exists_texts_of_matchesPattern hexact
    have hplaced := (caseExact_ofTexts.matchesPattern_iff text p).mp hexact
    exact (caseIgnore_ofTexts.matchesPattern_iff text p).mpr ((hsettled p rfl).placed hplaced)

/-- `"ΑΣ"` and `" ΑΣ "` are equal, and `"ΑΣΒ ΓΣ"` begins with `"ΑΣΒ"` and ends with `"ΓΣ"`, with
regard to case and without it. -/
theorem caseIgnore_of_caseExact_sigmas :
    caseExact.valuesMatch [0xCE, 0x91, 0xCE, 0xA3] [0x20, 0xCE, 0x91, 0xCE, 0xA3, 0x20] = .ok true ∧
      caseIgnore.valuesMatch [0xCE, 0x91, 0xCE, 0xA3] [0x20, 0xCE, 0x91, 0xCE, 0xA3, 0x20] =
        .ok true ∧
      caseExact.matchesPattern [0xCE, 0x91, 0xCE, 0xA3, 0xCE, 0x92, 0x20, 0xCE, 0x93, 0xCE, 0xA3]
        ⟨some [0xCE, 0x91, 0xCE, 0xA3, 0xCE, 0x92], [], some [0xCE, 0x93, 0xCE, 0xA3]⟩ =
        .ok true ∧
      caseIgnore.matchesPattern [0xCE, 0x91, 0xCE, 0xA3, 0xCE, 0x92, 0x20, 0xCE, 0x93, 0xCE, 0xA3]
        ⟨some [0xCE, 0x91, 0xCE, 0xA3, 0xCE, 0x92], [], some [0xCE, 0x93, 0xCE, 0xA3]⟩ =
        .ok true := by
  have hequal : caseExact.valuesMatch [0xCE, 0x91, 0xCE, 0xA3]
      [0x20, 0xCE, 0x91, 0xCE, 0xA3, 0x20] = .ok true := by decide
  have hfound : caseExact.matchesPattern
      [0xCE, 0x91, 0xCE, 0xA3, 0xCE, 0x92, 0x20, 0xCE, 0x93, 0xCE, 0xA3]
      ⟨some [0xCE, 0x91, 0xCE, 0xA3, 0xCE, 0x92], [], some [0xCE, 0x93, 0xCE, 0xA3]⟩ =
      .ok true := by decide
  have hsettled : (⟨some ['Α', 'Σ', 'Β'], [], some ['Γ', 'Σ']⟩ : TextPattern).Settled := by
    refine ⟨?_, nofun, nofun, ?_⟩
    · exact not_endsOnSigma_concat (by decide +kernel) (by decide) ['Α', 'Σ']
    · exact not_beginsOnSigma_cons (by decide +kernel) (by decide) ['Σ']
  obtain ⟨hvalues, hpattern⟩ := caseIgnore_of_caseExact [0xCE, 0x91, 0xCE, 0xA3]
    [0x20, 0xCE, 0x91, 0xCE, 0xA3, 0x20]
    (⟨some ['Α', 'Σ', 'Β'], [], some ['Γ', 'Σ']⟩ : TextPattern).octets
  refine ⟨hequal, hvalues hequal, hfound, hpattern.mpr (fun p hp => ?_) _ hfound⟩
  exact TextPattern.octets_injective hp ▸ hsettled

/-- `"ΑΣΑ"` begins with `"ΑΣ"` with regard to case. Without it, it does not, for that sigma ends a
word in `"ΑΣ"` alone; it begins with `"ασ"` instead. -/
theorem finalSigma_notFound :
    caseExact.matchesPattern [0xCE, 0x91, 0xCE, 0xA3, 0xCE, 0x91]
        ⟨some [0xCE, 0x91, 0xCE, 0xA3], [], none⟩ = .ok true ∧
      caseIgnore.matchesPattern [0xCE, 0x91, 0xCE, 0xA3, 0xCE, 0x91]
        ⟨some [0xCE, 0x91, 0xCE, 0xA3], [], none⟩ = .ok false ∧
      caseIgnore.matchesPattern [0xCE, 0x91, 0xCE, 0xA3, 0xCE, 0x91]
        ⟨some [0xCE, 0xB1, 0xCF, 0x83], [], none⟩ = .ok true := by
  decide +kernel

end DirectoryAccess.Matching
