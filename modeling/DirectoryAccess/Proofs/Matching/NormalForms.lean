import DirectoryAccess.Proofs.Matching.Cuts
import DirectoryAccess.Proofs.Text.Lowered

/-!
# Normal forms are fixed points

A text whose words stand one space apart, with none at its ends, is kept as it is
(`IsJoined.keep_eq`). What is kept of a text is one, and stays one in lower case, where
it is also its own lower-case form. So the normal form of a value is its own normal form
under each of the standard rules, and the value matches it (`normalize_normal`).
-/

namespace DirectoryAccess.Matching

open Utf8 (encode encodeChars)

/-! ## Texts that are kept as they are -/

/-- Words with one space between neighbours and none at the ends. -/
def IsJoined (text : List Char) : Prop :=
  ∃ ws, (∀ word ∈ ws, IsWord word) ∧ text = joinWords ws

/-- What is kept of a whole value are its words. -/
theorem keep_whole (text : List Char) : Edges.whole.keep text = joinWords (words text) :=
  trimEnd_squeeze text

/-- What is kept of a whole value has its words joined. -/
theorem isJoined_keep (text : List Char) : IsJoined (Edges.whole.keep text) :=
  ⟨words text, fun _ => isWord_of_mem_words, keep_whole text⟩

/-- A text with its words joined is kept as it is. -/
theorem IsJoined.keep_eq {text : List Char} (h : IsJoined text) : Edges.whole.keep text = text := by
  obtain ⟨ws, hws, rfl⟩ := h
  rw [keep_whole, words_joinWords hws]

/-- A word in lower case is a word. -/
theorem IsWord.lowerBetween {word : List Char} (h : IsWord word) (before after : List Char) :
    IsWord (lowerBetween before after word) :=
  ⟨mt lowerBetween_eq_nil_iff.mp h.ne_nil, mt space_mem_of_lowerBetween h.not_mem⟩

/-- Lower case changes each word to a word and leaves the spaces between them. -/
theorem exists_lowerBetween_joinWords {ws : List (List Char)} (h : ∀ word ∈ ws, IsWord word)
    (before after : List Char) :
    ∃ vs : List (List Char), vs.length = ws.length ∧ (∀ word ∈ vs, IsWord word) ∧
      lowerBetween before after (joinWords ws) = joinWords vs := by
  induction ws generalizing before with
  | nil => exact ⟨[], rfl, nofun, rfl⟩
  | cons word ws ih =>
      obtain ⟨hword, hrest⟩ := List.forall_mem_cons.mp h
      by_cases hempty : ws = []
      · subst hempty
        refine ⟨[lowerBetween before after word], rfl, ?_, ?_⟩
        · exact List.forall_mem_singleton.mpr (hword.lowerBetween before after)
        · rw [joinWords_singleton, joinWords_singleton]
      · obtain ⟨vs, hlength, hvs, hlower⟩ := ih hrest (' ' :: (word.reverse ++ before))
        have hne : vs ≠ [] := by
          rw [← List.length_pos_iff, hlength]
          exact List.length_pos_iff.mpr hempty
        refine ⟨_ :: vs, congrArg Nat.succ hlength, List.forall_mem_cons.mpr
          ⟨hword.lowerBetween before (' ' :: joinWords ws ++ after), hvs⟩, ?_⟩
        rw [joinWords_cons word hempty, joinWords_cons _ hne, lowerBetween_append,
          DirectoryAccess.lowerBetween, if_neg (by decide), lowerChar_of_lt (by decide), hlower]
        rfl

/-- Lower-casing moves no space, and makes none. -/
theorem IsJoined.lowerBetween {text : List Char} (h : IsJoined text) (before after : List Char) :
    IsJoined (lowerBetween before after text) := by
  obtain ⟨ws, hws, rfl⟩ := h
  obtain ⟨vs, -, hvs, hlower⟩ := exists_lowerBetween_joinWords hws before after
  exact ⟨vs, hvs, hlower⟩

/-! ## Normal forms -/

/-- The normal form of a value is its own normal form. -/
def Rule.FixesNormal (rule : Rule) : Prop :=
  ∀ value normal, rule.normalize value = .ok normal → rule.normalize normal = .ok normal

/-- A rule for texts fixes its normal forms where it does not write them otherwise a second time and
keeps words apart as they were. -/
theorem Rule.OfTexts.fixesNormal {rule : Rule} {form : List Char → List Char}
    (h : rule.OfTexts form) (hjoined : ∀ text, IsJoined text → IsJoined (form text))
    (hform : ∀ text, form (form text) = form text) : rule.FixesNormal := by
  intro value normal hnormal
  obtain ⟨text, rfl⟩ := h.exists_text value normal hnormal
  rw [encode, ← encodeChars, h.normalize_encodeChars] at hnormal
  obtain rfl := Except.ok.inj hnormal
  rw [h.normalize_encodeChars, (hjoined _ (isJoined_keep _)).keep_eq, hform]

/-- What caseExact makes of a value, it keeps. -/
theorem caseExact_fixesNormal : caseExact.FixesNormal :=
  caseExact_ofTexts.fixesNormal (fun _ => id) fun _ => rfl

/-- What caseIgnore makes of a value, it keeps: lower-case forms and joined words stay what they
are. -/
theorem caseIgnore_fixesNormal : caseIgnore.FixesNormal :=
  caseIgnore_ofTexts.fixesNormal (fun _ h => h.lowerBetween [] [])
    (lowerBetween_lowerBetween [] [] [] [])

theorem octetString_fixesNormal : octetString.FixesNormal := fun _ _ _ => rfl

/-- Digits without spaces among them stay as they are. -/
theorem numericString_fixesNormal : numericString.FixesNormal := by
  intro value normal h
  obtain ⟨hdigits, rfl⟩ := digitsFrom_eq_ok_iff.mp h
  refine digitsFrom_eq_ok_iff.mpr ⟨fun b hb => hdigits b (List.mem_of_mem_filter hb), ?_⟩
  simp only [List.reverse_nil, List.nil_append, List.filter_filter, Bool.and_self]

/-- The two spellings of each truth value have one normal form, which is one of them. -/
theorem boolean_fixesNormal : boolean.FixesNormal := by
  intro value normal h
  have hwords : boolean.normalize trueWord = .ok trueWord ∧
      boolean.normalize falseWord = .ok falseWord := by decide
  change (if _ then _ else _) = _ at h
  split at h
  · obtain rfl := Except.ok.inj h
    exact hwords.1
  split at h
  · obtain rfl := Except.ok.inj h
    exact hwords.2
  · cases h

/-- Each of the standard rules keeps the values that it makes. -/
theorem fixesNormal_of_mem_standardRules {rule : Rule} (h : rule ∈ standardRules) :
    rule.FixesNormal := by
  simp only [standardRules, List.mem_cons, List.not_mem_nil, or_false] at h
  rcases h with rfl | rfl | rfl | rfl | rfl
  · exact caseIgnore_fixesNormal
  · exact caseExact_fixesNormal
  · exact octetString_fixesNormal
  · exact numericString_fixesNormal
  · exact boolean_fixesNormal

/-- **Normal forms are fixed points.** Under each of the standard rules the normal form of a value
is its own normal form, and so the value matches it. -/
theorem normalize_normal {rule : Rule} (hrule : rule ∈ standardRules) {value normal : Octets}
    (h : rule.normalize value = .ok normal) :
    rule.normalize normal = .ok normal ∧ rule.valuesMatch value normal = .ok true := by
  have hfixed := fixesNormal_of_mem_standardRules hrule value normal h
  have hsame := Rule.valuesMatch_accepted_iff ⟨value, normal, h⟩ ⟨normal, normal, hfixed⟩
  exact ⟨hfixed, hsame.mpr rfl⟩

/-- `"  İΣ  Σ"` has the normal form `"i̇ς σ"`: a character more for the capital I with a dot, and
another sigma at the end of a word than alone. -/
theorem normalize_normal_dottedSigmas :
    caseIgnore ∈ standardRules ∧
      caseIgnore.normalize [0x20, 0x20, 0xC4, 0xB0, 0xCE, 0xA3, 0x20, 0x20, 0xCE, 0xA3] =
        .ok [0x69, 0xCC, 0x87, 0xCF, 0x82, 0x20, 0xCF, 0x83] ∧
      caseIgnore.normalize [0x69, 0xCC, 0x87, 0xCF, 0x82, 0x20, 0xCF, 0x83] =
        .ok [0x69, 0xCC, 0x87, 0xCF, 0x82, 0x20, 0xCF, 0x83] ∧
      caseIgnore.valuesMatch [0x20, 0x20, 0xC4, 0xB0, 0xCE, 0xA3, 0x20, 0x20, 0xCE, 0xA3]
        [0x69, 0xCC, 0x87, 0xCF, 0x82, 0x20, 0xCF, 0x83] = .ok true := by
  have hnormal : caseIgnore.normalize
      [0x20, 0x20, 0xC4, 0xB0, 0xCE, 0xA3, 0x20, 0x20, 0xCE, 0xA3] =
      .ok [0x69, 0xCC, 0x87, 0xCF, 0x82, 0x20, 0xCF, 0x83] := by decide +kernel
  have hrule : caseIgnore ∈ standardRules := List.mem_cons_self
  exact ⟨hrule, hnormal, normalize_normal hrule hnormal⟩

end DirectoryAccess.Matching
