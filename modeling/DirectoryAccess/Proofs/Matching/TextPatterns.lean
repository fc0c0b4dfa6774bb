import DirectoryAccess.Proofs.Matching.Placement
import DirectoryAccess.Proofs.Matching.Texts

/-!
# Patterns of text

Under a rule for texts a pattern has texts for parts. Their octets are sought in the
octets of the value, and since no character begins inside another one they are found
exactly where the texts can be placed, character by character
(`Rule.OfTexts.exists_matchesPattern`).
-/

namespace DirectoryAccess.Matching

open Utf8 (encodeChars)

/-- A pattern whose parts are texts. -/
structure TextPattern where
  /-- What the value has to begin with. -/
  initial : Option (List Char)
  /-- What has to come in it, in order. -/
  any : List (List Char)
  /-- What the value has to end with. -/
  final : Option (List Char)

namespace TextPattern

/-- The octets of the parts. -/
def octets (p : TextPattern) : SubstringPattern :=
  ⟨p.initial.map encodeChars, p.any.map encodeChars, p.final.map encodeChars⟩

/-- The octets of a pattern of texts tell the texts. -/
theorem octets_injective {p q : TextPattern} (h : p.octets = q.octets) : p = q := by
  have hinjective : Function.Injective encodeChars := fun _ _ => Utf8.encodeChars_injective
  obtain ⟨initial, any, final⟩ := p
  obtain ⟨initial', any', final'⟩ := q
  simp only [octets, SubstringPattern.mk.injEq, Option.map_inj_right hinjective] at h
  obtain ⟨rfl, hany, rfl⟩ := h
  rw [List.map_injective_iff.mpr hinjective hany]

/-- What is kept of the beginning. -/
def keptInitial (p : TextPattern) : List Char := (Edges.of .initial).keep (p.initial.getD [])

/-- What is kept of the parts in between. -/
def keptAny (p : TextPattern) : List (List Char) := p.any.map (Edges.of .any).keep

/-- What is kept of the end. -/
def keptFinal (p : TextPattern) : List Char := (Edges.of .final).keep (p.final.getD [])

end TextPattern

/-- The octets of parts come in the octets of a text exactly if the parts come in the text. An empty
part may stand inside a character; what comes behind it comes in the text. -/
theorem follow_encodeChars (final : List Char) (parts : List (List Char)) (text : List Char) :
    Follow (encodeChars final) (parts.map encodeChars) (encodeChars text) ↔
      Follow final parts text := by
  induction parts generalizing text with
  | nil =>
      refine ⟨Utf8.suffix_of_encodeChars, ?_⟩
      rintro ⟨front, rfl⟩
      exact ⟨encodeChars front, (Utf8.encodeChars_append front final).symm⟩
  | cons part parts ih =>
      constructor
      · rintro ⟨gap, rest, htext, hrest⟩
        by_cases hempty : part = []
        · subst hempty
          refine ⟨[], text, rfl, (ih text).mp ?_⟩
          rw [htext]
          exact hrest.append_left gap
        · obtain ⟨before, behind, rfl, -, rfl⟩ := Utf8.exists_of_encodeChars_eq hempty htext
          exact ⟨before, behind, rfl, (ih behind).mp hrest⟩
      · rintro ⟨before, behind, rfl, hrest⟩
        refine ⟨encodeChars before, encodeChars behind, ?_, (ih behind).mpr hrest⟩
        rw [Utf8.encodeChars_append, Utf8.encodeChars_append]

/-- A text begins with the octets of another one, with parts behind them, exactly if it begins
with that text and the parts come behind it. -/
theorem exists_follow_encodeChars_iff (text initial final : List Char) (parts : List (List Char)) :
    (∃ rest, encodeChars text = encodeChars initial ++ rest ∧
        Follow (encodeChars final) (parts.map encodeChars) rest) ↔
      ∃ rest, text = initial ++ rest ∧ Follow final parts rest := by
  constructor
  · rintro ⟨rest, htext, hrest⟩
    obtain ⟨behind, rfl, rfl⟩ := Utf8.exists_of_encodeChars_append htext.symm
    exact ⟨behind, rfl, (follow_encodeChars final parts behind).mp hrest⟩
  · rintro ⟨rest, rfl, hrest⟩
    exact ⟨encodeChars rest, Utf8.encodeChars_append initial rest,
      (follow_encodeChars final parts rest).mpr hrest⟩

namespace Rule

variable {rule : Rule} {form : List Char → List Char}

/-- Whether what is kept of the parts of a pattern can be placed in what is kept of a text, all
written in a form. -/
def Placed (form : List Char → List Char) (text : List Char) (p : TextPattern) : Prop :=
  ∃ rest, form (Edges.whole.keep text) = form p.keptInitial ++ rest ∧
    Follow (form p.keptFinal) (p.keptAny.map form) rest

/-- A rule for texts makes of a part the form of what is kept at its place, and of a part that is
missing that of the empty text. -/
theorem OfTexts.normalizePart?_encodeChars (h : rule.OfTexts form) (place : Place)
    (part : Option (List Char)) :
    rule.normalizePart? place (part.map encodeChars) =
      .ok (encodeChars (form ((Edges.of place).keep (part.getD [])))) := by
  cases part with
  | none =>
      have hnil : (Edges.of place).keep [] = [] := Edges.close_nil _
      rw [Option.getD_none, hnil, h.form_nil]
      rfl
  | some part => exact h.normalizePart_encodeChars place part

/-- Whether a text matches a pattern of texts is told, and is whether the parts can be placed. -/
theorem OfTexts.exists_matchesPattern (h : rule.OfTexts form) (text : List Char)
    (p : TextPattern) :
    ∃ found, rule.matchesPattern (encodeChars text) p.octets = .ok found ∧
      (found = true ↔ Placed form text p) := by
  have hany : p.octets.any.mapM (rule.normalizePart .any) =
      .ok ((p.keptAny.map form).map encodeChars) := by
    rw [TextPattern.octets, TextPattern.keptAny, List.mapM_map, List.map_map, List.map_map]
    exact mapM_of_forall fun part _ => h.normalizePart_encodeChars .any part
  obtain ⟨found, hmatches, hfound⟩ := exists_matchesPattern_of_normal (h.normalize_encodeChars text)
    (h.normalizePart?_encodeChars .initial p.initial) hany
    (h.normalizePart?_encodeChars .final p.final)
  exact ⟨found, hmatches, hfound.trans (exists_follow_encodeChars_iff _ _ _ _)⟩

/-- A text matches a pattern exactly if the forms of the parts are placed in its form. -/
theorem OfTexts.matchesPattern_iff (h : rule.OfTexts form) (text : List Char) (p : TextPattern) :
    rule.matchesPattern (encodeChars text) p.octets = .ok true ↔ Placed form text p := by
  obtain ⟨found, hmatches, hfound⟩ := h.exists_matchesPattern text p
  rw [hmatches, Except.ok.injEq, hfound]

/-- A part that a rule for texts accepts is a text, where it is not missing. -/
theorem OfTexts.exists_encodeChars_of_part (h : rule.OfTexts form) {place : Place}
    {part : Option Octets} {normal : Octets} (hpart : rule.normalizePart? place part = .ok normal) :
    ∃ text : Option (List Char), part = text.map encodeChars := by
  cases part with
  | none => exact ⟨none, rfl⟩
  | some part =>
      obtain ⟨text, rfl⟩ := h.exists_text_of_part place part normal hpart
      exact ⟨some text.toList, rfl⟩

/-- Parts that a rule for texts accepts are texts. -/
theorem OfTexts.exists_encodeChars_of_mapM (h : rule.OfTexts form) {place : Place}
    {parts normals : List Octets} (hparts : parts.mapM (rule.normalizePart place) = .ok normals) :
    ∃ texts : List (List Char), parts = texts.map encodeChars := by
  induction parts generalizing normals with
  | nil => exact ⟨[], rfl⟩
  | cons part parts ih =>
      rw [List.mapM_cons] at hparts
      obtain ⟨normal, hpart, hparts⟩ := bind_eq_ok_iff.mp hparts
      obtain ⟨rest, hrest, -⟩ := bind_eq_ok_iff.mp hparts
      obtain ⟨text, rfl⟩ := h.exists_text_of_part place part normal hpart
      obtain ⟨texts, rfl⟩ := ih hrest
      exact ⟨text.toList :: texts, rfl⟩

/-- What is found to match is a text, and so are all parts of the pattern. -/
theorem OfTexts.exists_texts_of_matchesPattern (h : rule.OfTexts form) {value : Octets}
    {pattern : SubstringPattern} (hmatches : rule.matchesPattern value pattern = .ok true) :
    ∃ text p, value = encodeChars text ∧ pattern = TextPattern.octets p := by
  obtain ⟨v, i, parts, f, hv, hi, hparts, hf⟩ := exists_normal_of_matchesPattern hmatches
  obtain ⟨text, rfl⟩ := h.exists_text value v hv
  obtain ⟨initial, hinitial⟩ := h.exists_encodeChars_of_part hi
  obtain ⟨any, hany⟩ := h.exists_encodeChars_of_mapM hparts
  obtain ⟨final, hfinal⟩ := h.exists_encodeChars_of_part hf
  refine ⟨text.toList, ⟨initial, any, final⟩, rfl, ?_⟩
  rw [TextPattern.octets, ← hinitial, ← hany, ← hfinal]

end Rule

end DirectoryAccess.Matching
