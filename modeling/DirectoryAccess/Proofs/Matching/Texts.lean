import DirectoryAccess.Matching.StandardRules
import DirectoryAccess.Proofs.Matching.Order
import DirectoryAccess.Proofs.Matching.Words
import DirectoryAccess.Proofs.Text.Boundaries
import DirectoryAccess.Proofs.Text.Lowercase
import DirectoryAccess.Proofs.Text.Utf8

/-!
# Rules for texts

Two of the standard rules accept every text and nothing else, and make the normal
form of a text out of its words: as they are, or in lower case (`Rule.OfTexts`). So
two texts are equal under them exactly if their words are, in the same form
(`valuesMatch_encode`).
-/

namespace DirectoryAccess.Matching

open Utf8 (encode encodeChars)

/-- The octets of a text are taken for the text. -/
theorem valueText_encode (text : String) : valueText (encode text) = .ok text := by
  rw [valueText, Utf8.decode_encode]

/-- Only the octets of a text are taken for it. -/
theorem eq_encode_of_valueText {value : Octets} {text : String} (h : valueText value = .ok text) :
    value = encode text := by
  rw [valueText] at h
  split at h
  · rename_i hdecode
    obtain rfl := Except.ok.inj h
    exact (Utf8.encode_of_decode hdecode).symm
  · cases h

namespace Rule

variable {rule : Rule} {form : List Char → List Char}

/-- A rule that accepts the texts, and has what it keeps of one written in the given form. -/
structure OfTexts (rule : Rule) (form : List Char → List Char) : Prop where
  /-- Every text has a normal form as a value. -/
  normalize_encode : ∀ text, rule.normalize (encode text) =
    .ok (encodeChars (form (collapseSpaces .whole text).toList))
  /-- Every text has a normal form as a part of a value. -/
  normalizePart_encode : ∀ place text, rule.normalizePart place (encode text) =
    .ok (encodeChars (form (collapseSpaces (.of place) text).toList))
  /-- Only texts are values. -/
  exists_text : ∀ value normal, rule.normalize value = .ok normal → ∃ text, value = encode text
  /-- Only texts are parts of values. -/
  exists_text_of_part : ∀ place part normal, rule.normalizePart place part = .ok normal →
    ∃ text, part = encode text
  /-- Nothing is written as nothing. -/
  form_nil : form [] = []

/-- A rule that first asks a value for its text, and then has what it keeps of it in the given
form, is a rule for texts. -/
theorem OfTexts.of_valueText
    (hnormalize : ∀ value, rule.normalize value = (do
      let text ← valueText value
      return encodeChars (form (collapseSpaces .whole text).toList)))
    (hnormalizePart : ∀ place value, rule.normalizePart place value = (do
      let text ← valueText value
      return encodeChars (form (collapseSpaces (.of place) text).toList)))
    (hnil : form [] = []) : rule.OfTexts form where
  normalize_encode text := by
    rw [hnormalize, valueText_encode]
    rfl
  normalizePart_encode place text := by
    rw [hnormalizePart, valueText_encode]
    rfl
  exists_text value normal h := by
    rw [hnormalize] at h
    obtain ⟨text, htext, -⟩ := bind_eq_ok_iff.mp h
    exact ⟨text, eq_encode_of_valueText htext⟩
  exists_text_of_part place part normal h := by
    rw [hnormalizePart] at h
    obtain ⟨text, htext, -⟩ := bind_eq_ok_iff.mp h
    exact ⟨text, eq_encode_of_valueText htext⟩
  form_nil := hnil

end Rule

/-- caseExact is a rule for texts, which changes no character. -/
theorem caseExact_ofTexts : caseExact.OfTexts id :=
  .of_valueText (fun _ => rfl) (fun _ _ => rfl) rfl

/-- caseIgnore is a rule for texts, which lower-cases them. -/
theorem caseIgnore_ofTexts : caseIgnore.OfTexts (lowerBetween [] []) := by
  have hlower (text : String) :
      encode (lowercase text) = encodeChars (lowerBetween [] [] text.toList) := by
    rw [lowercase_eq, Utf8.encode_ofList]
  refine .of_valueText (fun value => ?_) (fun place value => ?_) rfl
  · simp only [caseIgnore, hlower]
  · simp only [caseIgnore, hlower]

namespace Rule.OfTexts

variable {rule : Rule} {form : List Char → List Char} (h : rule.OfTexts form)
include h

/-- A rule for texts makes of a value the form of what is kept of it. -/
theorem normalize_encodeChars (text : List Char) :
    rule.normalize (encodeChars text) = .ok (encodeChars (form (Edges.whole.keep text))) := by
  have hnormal := h.normalize_encode (String.ofList text)
  rwa [Utf8.encode_ofList, collapseSpaces_eq, String.toList_ofList, String.toList_ofList]
    at hnormal

/-- A rule for texts makes of a part of a pattern the form of what is kept at its place. -/
theorem normalizePart_encodeChars (place : Place) (text : List Char) :
    rule.normalizePart place (encodeChars text) =
      .ok (encodeChars (form ((Edges.of place).keep text))) := by
  have hnormal := h.normalizePart_encode place (String.ofList text)
  rwa [Utf8.encode_ofList, collapseSpaces_eq, String.toList_ofList, String.toList_ofList]
    at hnormal

/-- Two texts are equal exactly if their words are, in the form that the rule has them in. -/
theorem valuesMatch_encode (s t : String) :
    rule.valuesMatch (encode s) (encode t) =
      .ok (decide (form (joinWords (words s.toList)) = form (joinWords (words t.toList)))) := by
  rw [valuesMatch, h.normalize_encode, h.normalize_encode, ok_bind, ok_bind, pure_eq_ok,
    collapseSpaces_whole, collapseSpaces_whole, String.toList_ofList, String.toList_ofList,
    Except.ok.injEq, Bool.eq_iff_iff, beq_iff_eq, decide_eq_true_iff]
  exact ⟨Utf8.encodeChars_injective, congrArg encodeChars⟩

/-- Whether two values match is told for texts and for nothing else. -/
theorem valuesMatch_fails_iff (a b : Octets) :
    (∃ failure, rule.valuesMatch a b = .error failure) ↔
      ¬ ∃ s t, a = encode s ∧ b = encode t := by
  constructor
  · rintro ⟨failure, hfailure⟩ ⟨s, t, rfl, rfl⟩
    rw [h.valuesMatch_encode] at hfailure
    cases hfailure
  · intro hnot
    cases hmatch : rule.valuesMatch a b with
    | error failure => exact ⟨failure, rfl⟩
    | ok found =>
        obtain ⟨x, hx, hmatch⟩ := bind_eq_ok_iff.mp hmatch
        obtain ⟨y, hy, -⟩ := bind_eq_ok_iff.mp hmatch
        obtain ⟨s, rfl⟩ := h.exists_text a x hx
        obtain ⟨t, rfl⟩ := h.exists_text b y hy
        exact absurd ⟨s, t, rfl, rfl⟩ hnot

/-- Two values match, or do not, as their words are the same, or not, in the form that the rule
has them in. -/
theorem valuesMatch_eq_ok_iff (a b : Octets) (found : Bool) :
    rule.valuesMatch a b = .ok found ↔ ∃ s t, a = encode s ∧ b = encode t ∧
      (form (joinWords (words s.toList)) = form (joinWords (words t.toList)) ↔ found = true) := by
  constructor
  · intro hmatch
    have htexts : ∃ s t, a = encode s ∧ b = encode t := by
      by_contra hnot
      obtain ⟨failure, hfailure⟩ := (h.valuesMatch_fails_iff a b).mpr hnot
      rw [hmatch] at hfailure
      cases hfailure
    obtain ⟨s, t, rfl, rfl⟩ := htexts
    rw [h.valuesMatch_encode] at hmatch
    exact ⟨s, t, rfl, rfl, by rw [← Except.ok.inj hmatch, decide_eq_true_iff]⟩
  · rintro ⟨s, t, rfl, rfl, hiff⟩
    rw [h.valuesMatch_encode, Except.ok.injEq, Bool.eq_iff_iff, decide_eq_true_iff, hiff]

end Rule.OfTexts

/-! ## Equality by words -/

/-- A change of characters that keeps the space changes the words one by one. -/
theorem map_joinWords {f : Char → Char} (hf : f ' ' = ' ') (ws : List (List Char)) :
    (joinWords ws).map f = joinWords (ws.map (List.map f)) := by
  induction ws with
  | nil => rfl
  | cons word ws ih =>
      by_cases hempty : ws = []
      · rw [hempty, List.map_singleton, joinWords_singleton, joinWords_singleton]
      · rw [joinWords_cons word hempty, List.map_append, List.map_cons, hf, ih, List.map_cons,
          joinWords_cons _ (mt List.map_eq_nil_iff.mp hempty)]

/-- Every character that is kept of a text is one of the text. -/
theorem mem_of_mem_word {text word : List Char} {c : Char} (hword : word ∈ words text)
    (hc : c ∈ word) : c ∈ text := by
  induction text using induction_words with
  | nil => exact absurd hword List.not_mem_nil
  | space text ih => exact List.mem_cons_of_mem _ (ih (by rwa [words_space] at hword))
  | word other hother =>
      rw [words_word hother, List.mem_singleton] at hword
      exact hword ▸ hc
  | wordSpace other text hother ih =>
      rw [words_word_space hother] at hword
      rcases List.mem_cons.mp hword with rfl | hword
      · exact List.mem_append_left _ hc
      · exact List.mem_append_right _ (List.mem_cons_of_mem _ (ih hword))

/-- The characters of joined words are spaces or characters of the words. -/
theorem mem_joinWords {ws : List (List Char)} {c : Char} (h : c ∈ joinWords ws) :
    c = ' ' ∨ ∃ word ∈ ws, c ∈ word := by
  induction ws with
  | nil => exact absurd h List.not_mem_nil
  | cons word ws ih =>
      by_cases hempty : ws = []
      · rw [hempty, joinWords_singleton] at h
        exact .inr ⟨word, List.mem_cons_self, h⟩
      rw [joinWords_cons word hempty] at h
      rcases List.mem_append.mp h with h | h
      · exact .inr ⟨word, List.mem_cons_self, h⟩
      rcases List.mem_cons.mp h with h | h
      · exact .inl h
      · exact (ih h).imp_right fun ⟨other, hother, hc⟩ =>
          ⟨other, List.mem_cons_of_mem _ hother, hc⟩

/-- The words of a text with the capital letters of ASCII made small ones. -/
def smallWords (text : String) : List (List Char) := (words text.toList).map (List.map Char.toLower)

/-- The small words of a text of ASCII are words. -/
theorem isWord_of_mem_smallWords {text : String} (h : ∀ c ∈ text.toList, c.toNat < 0x80)
    {word : List Char} (hword : word ∈ smallWords text) : IsWord word := by
  have hspace : ∀ n < 0x80, (Char.ofNat n).toLower = ' ' → Char.ofNat n = ' ' := by decide
  obtain ⟨large, hlarge, rfl⟩ := List.mem_map.mp hword
  obtain ⟨hne, hmem⟩ := isWord_of_mem_words hlarge
  refine ⟨mt List.map_eq_nil_iff.mp hne, fun hsmall => ?_⟩
  obtain ⟨c, hc, hlower⟩ := List.mem_map.mp hsmall
  rw [← Char.ofNat_toNat c] at hlower
  have hblank := hspace c.toNat (h c (mem_of_mem_word hlarge hc)) hlower
  rw [Char.ofNat_toNat] at hblank
  exact hmem (hblank ▸ hc)

/-- Joined words of ASCII in lower case are the small words, joined. -/
theorem lowerBetween_joinWords {text : String} (h : ∀ c ∈ text.toList, c.toNat < 0x80) :
    lowerBetween [] [] (joinWords (words text.toList)) = joinWords (smallWords text) := by
  rw [lowerBetween_of_lt, map_joinWords rfl, smallWords]
  intro c hc
  rcases mem_joinWords hc with rfl | ⟨word, hword, hc⟩
  · decide
  · exact h c (mem_of_mem_word hword hc)

/-- **Words decide.** What is kept of a text are its words with one space between neighbours, and
of a part of a value a space at an end where the part has one and its place is not that end of the
value. So two octet strings are equal as texts with regard to case exactly if both are texts with
the same words, and unequal exactly if both are texts with other words; two of ASCII are equal
without regard to case exactly if their words are the same in small letters. -/
theorem words_decide :
    (∀ text, collapseSpaces .whole text = String.ofList (joinWords (words text.toList))) ∧
      (∀ place text,
        collapseSpaces (.of place) text = String.ofList (spacedWords place text.toList)) ∧
      (∀ a b,
        (caseExact.valuesMatch a b = .ok true ↔
          ∃ s t, a = encode s ∧ b = encode t ∧ words s.toList = words t.toList) ∧
        (caseExact.valuesMatch a b = .ok false ↔
          ∃ s t, a = encode s ∧ b = encode t ∧ words s.toList ≠ words t.toList) ∧
        ((∃ failure, caseExact.valuesMatch a b = .error failure) ↔
          ¬ ∃ s t, a = encode s ∧ b = encode t)) ∧
      ∀ a b, (∀ x ∈ a, x < 0x80) → (∀ x ∈ b, x < 0x80) → ∃ s t, a = encode s ∧ b = encode t ∧
        (caseIgnore.valuesMatch a b = .ok true ↔ smallWords s = smallWords t) := by
  refine ⟨collapseSpaces_whole, collapseSpaces_of, fun a b => ⟨?_, ?_, ?_⟩, ?_⟩
  · rw [caseExact_ofTexts.valuesMatch_eq_ok_iff]
    simp only [id_eq, iff_true, joinWords_inj (fun _ => isWord_of_mem_words)
      (fun _ => isWord_of_mem_words)]
  · rw [caseExact_ofTexts.valuesMatch_eq_ok_iff]
    simp only [id_eq, Bool.false_eq_true, iff_false, joinWords_inj (fun _ => isWord_of_mem_words)
      (fun _ => isWord_of_mem_words), ne_eq]
  · exact caseExact_ofTexts.valuesMatch_fails_iff a b
  · intro a b ha hb
    obtain ⟨s, rfl, hs⟩ := Utf8.exists_encode_of_lt ha
    obtain ⟨t, rfl, ht⟩ := Utf8.exists_encode_of_lt hb
    refine ⟨s, t, rfl, rfl, ?_⟩
    rw [caseIgnore_ofTexts.valuesMatch_encode, Except.ok.injEq, decide_eq_true_iff,
      lowerBetween_joinWords hs, lowerBetween_joinWords ht,
      joinWords_inj (fun _ => isWord_of_mem_smallWords hs) (fun _ => isWord_of_mem_smallWords ht)]

/-- `"  JOHN   Doe "` and `"john doe"` have the same words in small letters. -/
theorem words_decide_johnDoe :
    (∀ x ∈ ([0x20, 0x20, 0x4A, 0x4F, 0x48, 0x4E, 0x20, 0x20, 0x20, 0x44, 0x6F, 0x65, 0x20] : Octets),
        x < 0x80) ∧
      (∀ x ∈ ([0x6A, 0x6F, 0x68, 0x6E, 0x20, 0x64, 0x6F, 0x65] : Octets), x < 0x80) ∧
      caseIgnore.valuesMatch
        [0x20, 0x20, 0x4A, 0x4F, 0x48, 0x4E, 0x20, 0x20, 0x20, 0x44, 0x6F, 0x65, 0x20]
        [0x6A, 0x6F, 0x68, 0x6E, 0x20, 0x64, 0x6F, 0x65] = .ok true := by
  refine ⟨by decide +kernel, by decide +kernel, ?_⟩
  obtain ⟨s, t, hs, ht, hiff⟩ := words_decide.2.2.2
    [0x20, 0x20, 0x4A, 0x4F, 0x48, 0x4E, 0x20, 0x20, 0x20, 0x44, 0x6F, 0x65, 0x20]
    [0x6A, 0x6F, 0x68, 0x6E, 0x20, 0x64, 0x6F, 0x65] (by decide +kernel) (by decide +kernel)
  have hcapital : Utf8.decode (encode s) = .ok "  JOHN   Doe " := by rw [← hs]; decide
  have hsmall : Utf8.decode (encode t) = .ok "john doe" := by rw [← ht]; decide
  rw [Utf8.decode_encode, Except.ok.injEq] at hcapital hsmall
  rw [hiff, hcapital, hsmall]
  decide

end DirectoryAccess.Matching
