import DirectoryAccess.Proofs.Matching.TextPatterns

/-!
# Parts cut out of a value

A value can be cut into pieces and be sought by them. Where every octet counts, or
digits alone, the pieces are found again, and so are some of them. Where runs of
spaces count as one space, a run that is divided between pieces would need a space
in each of them, and one at an end of the value has none to give: the pieces are
found again exactly if every cut stands beside a character that is no space
(`caseExact_matchesPattern_iff`).
-/

namespace DirectoryAccess.Matching

open Utf8 (encodeChars)

/-- A value in pieces: one in front, some in between and one behind. -/
structure Cutting (α : Type) where
  /-- The piece in front. -/
  initial : List α
  /-- The pieces in between, in order. -/
  any : List (List α)
  /-- The piece behind. -/
  final : List α

namespace Cutting

/-- The value that is cut. -/
def whole {α : Type} (c : Cutting α) : List α := c.initial ++ (c.any.flatten ++ c.final)

/-- The pattern that names every piece. -/
def pattern (c : Cutting UInt8) : SubstringPattern := ⟨some c.initial, c.any, some c.final⟩

/-- The octets of the pieces of a text. -/
def octets (c : Cutting Char) : Cutting UInt8 :=
  ⟨encodeChars c.initial, c.any.map encodeChars, encodeChars c.final⟩

/-- A text that is cut into pieces has the octets of its pieces. -/
theorem whole_octets (c : Cutting Char) : c.octets.whole = encodeChars c.whole := by
  have hflatten (pieces : List (List Char)) :
      (pieces.map encodeChars).flatten = encodeChars pieces.flatten := by
    induction pieces with
    | nil => rfl
    | cons piece pieces ih =>
        rw [List.map_cons, List.flatten_cons, List.flatten_cons, ih, Utf8.encodeChars_append]
  rw [whole, whole, octets, hflatten, Utf8.encodeChars_append, Utf8.encodeChars_append]

end Cutting

/-! ## Cuts and runs of spaces -/

/-- The cuts in front of some pieces, each as what stands before it and what behind. -/
def cutsFrom (front : List Char) : List (List Char) → List (List Char × List Char)
  | [] => []
  | piece :: pieces => (front, piece ++ pieces.flatten) :: cutsFrom (front ++ piece) pieces

/-- Whether a cut stands beside a character that is no space. -/
def BesideWord (cut : List Char × List Char) : Prop :=
  (∃ c ∈ cut.1.getLast?, c ≠ ' ') ∨ ∃ c ∈ cut.2.head?, c ≠ ' '

/-- Whether a cut has spaces on both sides. What is in front of the whole text counts as a space. -/
def DividesRun (cut : List Char × List Char) : Prop :=
  endsInRun true cut.1 = true ∧ cut.2.head? = some ' '

/-- Whether a text is cut into pieces that can be found again: every cut stands beside a character
that is no space, or there is none in the text and nothing between the first piece and the last. -/
def Cutting.KeepsRuns (c : Cutting Char) : Prop :=
  (∀ cut ∈ cutsFrom c.initial (c.any ++ [c.final]), BesideWord cut) ∨
    words c.whole = [] ∧ ∀ piece ∈ c.any, piece = []

/-- A cut stands beside no other character than spaces exactly if it divides a run, where what is
behind the whole text counts as a space, too. -/
theorem besideWord_iff (front back : List Char) :
    BesideWord (front, back) ↔ ¬ DividesRun (front, back ++ [' ']) := by
  have hfront : (∃ c ∈ front.getLast?, c ≠ ' ') ↔ ¬ endsInRun true front = true := by
    rw [endsInRun_eq]
    cases front.getLast? with
    | none => simp
    | some c => simp
  have hback : (∃ c ∈ back.head?, c ≠ ' ') ↔ ¬ (back ++ [' ']).head? = some ' ' := by
    cases back with
    | nil => simp
    | cons c back => simp
  rw [BesideWord, DividesRun, hfront, hback, not_and_or]

/-- What is added to the last piece stands behind every cut. -/
theorem cutsFrom_concat (front last added : List Char) (pieces : List (List Char)) :
    cutsFrom front (pieces ++ [last ++ added]) =
      (cutsFrom front (pieces ++ [last])).map fun cut => (cut.1, cut.2 ++ added) := by
  induction pieces generalizing front with
  | nil => simp only [List.nil_append, cutsFrom, List.flatten_nil, List.append_nil, List.map_cons,
      List.map_nil]
  | cons piece pieces ih =>
      simp only [List.cons_append, cutsFrom, ih, List.map_cons, List.flatten_append,
        List.flatten_singleton, List.append_assoc]

/-- If no cut divides a run, then neither does the first, which has all pieces behind it. -/
theorem not_dividesRun_of_cutsFrom {front : List Char} {pieces : List (List Char)}
    (h : ∀ cut ∈ cutsFrom front pieces, ¬ DividesRun cut) :
    ¬ DividesRun (front, pieces.flatten) := by
  cases pieces with
  | nil => exact fun hdivides => absurd hdivides.2 nofun
  | cons piece pieces => exact h _ List.mem_cons_self

/-- Squeezed on its own, a piece has a space more where a cut divides a run in front of it. -/
theorem squeeze_false_eq (inRun : Bool) (piece : List Char) :
    squeeze false piece =
      (if inRun = true ∧ piece.head? = some ' ' then [' '] else []) ++ squeeze inRun piece := by
  cases inRun with
  | false => rfl
  | true => simpa only [true_and] using squeeze_false piece

/-- Squeezed one by one, pieces are the squeezed text where no cut divides a run. -/
theorem flatten_map_squeeze {front : List Char} {pieces : List (List Char)}
    (h : ∀ cut ∈ cutsFrom front pieces, ¬ DividesRun cut) :
    (pieces.map (squeeze false)).flatten = squeeze (endsInRun true front) pieces.flatten := by
  induction pieces generalizing front with
  | nil => rfl
  | cons piece pieces ih =>
      obtain ⟨hfirst, hrest⟩ := List.forall_mem_cons.mp h
      have hpiece : squeeze false piece = squeeze (endsInRun true front) piece := by
        rw [squeeze_false_eq (endsInRun true front), if_neg, List.nil_append]
        rintro ⟨hrun, hspace⟩
        refine hfirst ⟨hrun, ?_⟩
        rw [List.head?_append, hspace, Option.some_or]
      rw [List.map_cons, List.flatten_cons, List.flatten_cons, squeeze_append, hpiece, ih hrest,
        endsInRun_append]

/-- Squeezed one by one, pieces are no shorter than the squeezed text, and longer if a cut divides a
run: the piece behind it then has a space for which there is no room. -/
theorem length_squeeze_le (front : List Char) (pieces : List (List Char)) :
    (squeeze (endsInRun true front) pieces.flatten).length ≤
        ((pieces.map (squeeze false)).map List.length).sum ∧
      (((pieces.map (squeeze false)).map List.length).sum ≤
          (squeeze (endsInRun true front) pieces.flatten).length →
        ∀ cut ∈ cutsFrom front pieces, ¬ DividesRun cut) := by
  induction pieces generalizing front with
  | nil => exact ⟨Nat.le_refl 0, fun _ cut hcut => absurd hcut List.not_mem_nil⟩
  | cons piece pieces ih =>
      obtain ⟨hle, hrest⟩ := ih (front ++ piece)
      rw [endsInRun_append] at hle hrest
      rw [List.flatten_cons, squeeze_append, List.length_append, List.map_cons, List.map_cons,
        List.sum_cons, squeeze_false_eq (endsInRun true front), List.length_append]
      refine ⟨by omega, fun hsum => ?_⟩
      have hundivided := hrest (by omega)
      refine List.forall_mem_cons.mpr ⟨?_, hundivided⟩
      cases piece with
      | nil =>
          rw [List.append_nil] at hundivided
          exact not_dividesRun_of_cutsFrom hundivided
      | cons c piece =>
          rintro ⟨hrun, hhead⟩
          rw [if_pos ⟨hrun, hhead⟩, List.length_singleton] at hsum
          omega

/-! ## Pieces of a text -/

namespace Cutting

/-- The pattern that names every piece of a text. -/
def texts (c : Cutting Char) : TextPattern := ⟨some c.initial, c.any, some c.final⟩

theorem pattern_octets (c : Cutting Char) : c.octets.pattern = c.texts.octets := rfl

/-- With regard to case and not to spaces, the pieces are placed as they are squeezed: the first
one after a run of spaces, the last one with no space at its end. -/
theorem placed_texts_iff (c : Cutting Char) :
    Rule.Placed id c.whole c.texts ↔
      ∃ rest, joinWords (words c.whole) = squeeze true c.initial ++ rest ∧
        Follow (trimEnd (squeeze false c.final)) (c.any.map (squeeze false)) rest := by
  rw [← trimEnd_squeeze, Rule.Placed, List.map_id]
  rfl

/-- With a space behind it, a text that has a word is squeezed as its pieces are, where the run
that a piece begins in may have begun in front of it. -/
theorem joinWords_whole (c : Cutting Char) (h : words c.whole ≠ []) :
    joinWords (words c.whole) ++ [' '] = squeeze true c.initial ++
      squeeze (endsInRun true c.initial) (c.any ++ [c.final ++ [' ']]).flatten := by
  rw [joinWords_append_space h, ← squeeze_append]
  simp only [whole, List.flatten_append, List.flatten_singleton, List.append_assoc]

/-- Where the text has a word, its pieces are found in what is kept of it exactly if no cut divides
a run of spaces, those behind the text included. -/
theorem placed_iff_of_words (c : Cutting Char) (h : words c.whole ≠ []) :
    Rule.Placed id c.whole c.texts ↔
      ∀ cut ∈ cutsFrom c.initial (c.any ++ [c.final ++ [' ']]), ¬ DividesRun cut := by
  rw [placed_texts_iff]
  have hwhole := c.joinWords_whole h
  have hlast := trimEnd_squeeze_false c.final
  constructor
  · rintro ⟨rest, hrest, hfollow⟩
    have hroom := hfollow.sum_le List.length fun _ _ => List.length_append
    refine (length_squeeze_le c.initial (c.any ++ [c.final ++ [' ']])).2 ?_
    have hlength := congrArg List.length hwhole
    have hlastLength := congrArg List.length hlast
    rw [hrest] at hlength
    simp only [List.length_append] at hlength hlastLength
    simp only [List.map_append, List.map_singleton, List.sum_append, List.sum_singleton]
    omega
  · intro hcuts
    rw [← flatten_map_squeeze hcuts, List.map_append, List.map_singleton, ← hlast,
      List.flatten_append, List.flatten_singleton, ← List.append_assoc, ← List.append_assoc,
      List.append_cancel_right_eq, List.append_assoc] at hwhole
    exact ⟨_, hwhole, follow_flatten _ _⟩

/-- Of a text without a word nothing is kept, so only empty pieces are found in between. -/
theorem placed_iff_of_blank (c : Cutting Char) (h : words c.whole = []) :
    Rule.Placed id c.whole c.texts ↔ ∀ piece ∈ c.any, piece = [] := by
  have hblank : ∀ x ∈ c.initial ++ (c.any.flatten ++ c.final), x = ' ' := words_eq_nil_iff.mp h
  obtain ⟨hinitial, hrest⟩ := List.forall_mem_append.mp hblank
  obtain ⟨-, hfinal⟩ := List.forall_mem_append.mp hrest
  have hsqueeze {text : List Char} (htext : ∀ x ∈ text, x = ' ') : squeeze true text = [] :=
    squeeze_true_eq_nil_iff.mpr (words_eq_nil_iff.mpr htext)
  have hlast : trimEnd (squeeze false c.final) = [] := by
    rw [squeeze_false, hsqueeze hfinal, List.append_nil]
    split
    · exact trimEnd_space
    · exact trimEnd_nil
  rw [placed_texts_iff, h, hsqueeze hinitial, hlast]
  constructor
  · rintro ⟨rest, hnil, hfollow⟩ piece hpiece
    obtain rfl : rest = [] := hnil.symm
    have hone : Follow [] [squeeze false piece] [] :=
      hfollow.sublist (List.singleton_sublist.mpr (List.mem_map_of_mem hpiece))
    have hroom := hone.sum_le List.length fun _ _ => List.length_append
    rw [List.map_singleton, List.sum_singleton] at hroom
    have hnone : squeeze false piece = [] := List.eq_nil_of_length_eq_zero (Nat.le_zero.mp hroom)
    rw [← List.getLast?_eq_none_iff, ← getLast?_squeeze_false, hnone, List.getLast?_nil]
  · intro hempty
    have hflatten : (c.any.map (squeeze false)).flatten = [] := by
      rw [List.flatten_eq_nil_iff]
      intro piece hpiece
      obtain ⟨own, hown, rfl⟩ := List.mem_map.mp hpiece
      rw [hempty own hown, squeeze_nil]
    refine ⟨[], rfl, ?_⟩
    have hfollow := follow_flatten [] (c.any.map (squeeze false))
    rwa [hflatten] at hfollow

/-- With a space behind the last piece, no cut divides a run exactly if each cut stands beside a
character that is no space. -/
theorem besideWord_cutsFrom_iff (c : Cutting Char) :
    (∀ cut ∈ cutsFrom c.initial (c.any ++ [c.final ++ [' ']]), ¬ DividesRun cut) ↔
      ∀ cut ∈ cutsFrom c.initial (c.any ++ [c.final]), BesideWord cut := by
  rw [cutsFrom_concat, List.forall_mem_map]
  exact forall₂_congr fun cut _ => (besideWord_iff cut.1 cut.2).symm

/-- In a text without a word no cut stands beside one. -/
theorem not_besideWord_of_blank (c : Cutting Char) (h : words c.whole = []) :
    ¬ ∀ cut ∈ cutsFrom c.initial (c.any ++ [c.final]), BesideWord cut := by
  intro hbeside
  have hblank : ∀ x ∈ c.initial ++ (c.any.flatten ++ c.final), x = ' ' := words_eq_nil_iff.mp h
  have hfirst : (c.initial, (c.any ++ [c.final]).flatten) ∈
      cutsFrom c.initial (c.any ++ [c.final]) := by
    cases c.any with
    | nil => exact List.mem_cons_self
    | cons piece pieces => exact List.mem_cons_self
  rw [List.flatten_append, List.flatten_singleton] at hfirst
  rcases hbeside _ hfirst with ⟨x, hx, hword⟩ | ⟨x, hx, hword⟩
  · exact hword (hblank x (List.mem_append_left _ (List.mem_of_getLast? hx)))
  · exact hword (hblank x (List.mem_append_right _ (List.mem_of_head? hx)))

/-- The pieces of a text are found in it exactly if the cuts keep its runs of spaces. -/
theorem placed_iff_keepsRuns (c : Cutting Char) : Rule.Placed id c.whole c.texts ↔ c.KeepsRuns := by
  by_cases h : words c.whole = []
  · rw [c.placed_iff_of_blank h, KeepsRuns, or_iff_right (c.not_besideWord_of_blank h),
      and_iff_right h]
  · rw [c.placed_iff_of_words h, c.besideWord_cutsFrom_iff, KeepsRuns,
      or_iff_left fun hblank => h hblank.1]

end Cutting

/-- With regard to case, the pieces of a text are found in it exactly if the text is cut beside
characters that are no spaces. -/
theorem caseExact_matchesPattern_iff (c : Cutting Char) :
    ∃ found, caseExact.matchesPattern c.octets.whole c.octets.pattern = .ok found ∧
      (found = true ↔ c.KeepsRuns) := by
  obtain ⟨found, hmatches, hfound⟩ := caseExact_ofTexts.exists_matchesPattern c.whole c.texts
  rw [c.whole_octets, c.pattern_octets]
  exact ⟨found, hmatches, hfound.trans c.placed_iff_keepsRuns⟩

/-- The values with regard to case are the texts. -/
theorem exists_caseExact_normalize_iff (value : Octets) :
    (∃ normal, caseExact.normalize value = .ok normal) ↔ ∃ text, value = encodeChars text := by
  constructor
  · rintro ⟨normal, h⟩
    obtain ⟨text, rfl⟩ := caseExact_ofTexts.exists_text value normal h
    exact ⟨text.toList, rfl⟩
  · rintro ⟨text, rfl⟩
    exact ⟨_, caseExact_ofTexts.normalize_encodeChars text⟩

/-! ## Pieces of octets and of digits -/

/-- Where the pieces are normalized alike and in that together are what the whole is, they are
found. -/
theorem matchesPattern_of_forms {rule : Rule} {form : Octets → Octets} (c : Cutting UInt8)
    (happend : ∀ x y, form (x ++ y) = form x ++ form y)
    (hwhole : rule.normalize c.whole = .ok (form c.whole))
    (hpieces : ∀ piece ∈ c.initial :: (c.any ++ [c.final]), ∀ place,
      rule.normalizePart place piece = .ok (form piece)) :
    rule.matchesPattern c.whole c.pattern = .ok true := by
  obtain ⟨hinitial, hrest⟩ := List.forall_mem_cons.mp hpieces
  obtain ⟨hany, hfinal⟩ := List.forall_mem_append.mp hrest
  have hflatten (pieces : List Octets) : form pieces.flatten = (pieces.map form).flatten := by
    induction pieces with
    | nil =>
        have hnil := happend [] []
        exact List.self_eq_append_left.mp hnil
    | cons piece pieces ih => rw [List.flatten_cons, happend, ih, List.map_cons, List.flatten_cons]
  rw [Rule.matchesPattern_eq_true_iff]
  refine ⟨_, _, _, _, hwhole, hinitial .initial, Rule.mapM_of_forall fun piece hpiece =>
    hany piece hpiece .any, hfinal c.final (List.mem_singleton_self _) .final, ?_⟩
  refine ⟨_, ?_, follow_flatten (form c.final) (c.any.map form)⟩
  rw [Cutting.whole, happend, happend, hflatten]

/-- Digits and spaces are read as the digits among them, and nothing else is read. -/
theorem digitsFrom_eq_ok_iff {index : Nat} {digits octets normal : Octets} :
    digitsFrom index digits octets = .ok normal ↔
      (∀ b ∈ octets, b = 0x20 ∨ 0x30 ≤ b ∧ b ≤ 0x39) ∧
        normal = digits.reverse ++ octets.filter (· != 0x20) := by
  induction octets generalizing index digits with
  | nil =>
      rw [digitsFrom, List.filter_nil, List.append_nil, Except.ok.injEq, eq_comm]
      exact (and_iff_right fun b hb => absurd hb List.not_mem_nil).symm
  | cons b octets ih =>
      rw [digitsFrom, List.forall_mem_cons]
      by_cases hspace : b = 0x20
      · rw [if_pos hspace, ih, List.filter_cons_of_neg (by rw [hspace]; decide)]
        exact and_congr_left fun _ => (and_iff_right (.inl hspace)).symm
      · have hkept : (b != 0x20) = true := bne_iff_ne.mpr hspace
        rw [if_neg hspace, List.filter_cons, if_pos hkept]
        by_cases hdigit : 0x30 ≤ b ∧ b ≤ 0x39
        · rw [if_pos hdigit, ih, List.reverse_cons, List.append_assoc, List.singleton_append]
          exact and_congr_left fun _ => (and_iff_right (.inr hdigit)).symm
        · rw [if_neg hdigit]
          exact iff_of_false nofun fun h => h.1.1.elim hspace hdigit

/-- The pieces of a string of digits are strings of digits. -/
theorem numericString_matchesPattern (c : Cutting UInt8) {normal : Octets}
    (h : numericString.normalize c.whole = .ok normal) :
    numericString.matchesPattern c.whole c.pattern = .ok true := by
  obtain ⟨hdigits, rfl⟩ := digitsFrom_eq_ok_iff.mp h
  refine matchesPattern_of_forms c (fun _ _ => List.filter_append _ _) h fun piece hpiece place =>
    digitsFrom_eq_ok_iff.mpr ⟨fun b hb => hdigits b ?_, rfl⟩
  rw [Cutting.whole]
  rcases List.mem_cons.mp hpiece with rfl | hpiece
  · exact List.mem_append_left _ hb
  rcases List.mem_append.mp hpiece with hpiece | hpiece
  · exact List.mem_append_right _ (List.mem_append_left _ (List.mem_flatten_of_mem hpiece hb))
  · rw [List.mem_singleton.mp hpiece] at hb
    exact List.mem_append_right _ (List.mem_append_right _ hb)

/-- **Pieces are found again.** However a value is cut into pieces, a pattern of all of them or of
some matches the value where every octet counts, and where digits do. With regard to case, where
runs of spaces count as one and those at the ends of the value as none, it does so for all and for
every choice of pieces exactly if every cut stands beside a character that is no space, or the
value is spaces only and nothing stands between the first piece and the last; otherwise the pattern
of all pieces does not match. -/
theorem pieces_found :
    (∀ (c : Cutting UInt8) (few : SubstringPattern), few.PartOf c.pattern →
        octetString.matchesPattern c.whole few = .ok true) ∧
      (∀ c : Cutting UInt8, (∃ normal, numericString.normalize c.whole = .ok normal) →
        ∀ few : SubstringPattern, few.PartOf c.pattern →
          numericString.matchesPattern c.whole few = .ok true) ∧
      (∀ value, (∃ normal, caseExact.normalize value = .ok normal) ↔
        ∃ text, value = encodeChars text) ∧
      ∀ c : Cutting Char,
        ((∀ few : SubstringPattern, few.PartOf c.octets.pattern →
            caseExact.matchesPattern c.octets.whole few = .ok true) ↔ c.KeepsRuns) ∧
          (¬ c.KeepsRuns →
            caseExact.matchesPattern c.octets.whole c.octets.pattern = .ok false) := by
  refine ⟨fun c few hfew => ?_, fun c haccepted few hfew => ?_, exists_caseExact_normalize_iff,
    fun c => ?_⟩
  · exact Rule.matchesPattern_of_partOf hfew
      (matchesPattern_of_forms c (fun _ _ => rfl) rfl fun _ _ _ => rfl)
  · obtain ⟨normal, hnormal⟩ := haccepted
    exact Rule.matchesPattern_of_partOf hfew (numericString_matchesPattern c hnormal)
  · obtain ⟨found, hmatches, hfound⟩ := caseExact_matchesPattern_iff c
    refine ⟨⟨fun hall => ?_, fun hkeeps few hfew => ?_⟩, fun hkeeps => ?_⟩
    · have hwhole := hall _ (.refl _)
      rw [hmatches, Except.ok.injEq] at hwhole
      exact hfound.mp hwhole
    · rw [hfound.mpr hkeeps] at hmatches
      exact Rule.matchesPattern_of_partOf hfew hmatches
    · rw [hmatches, Bool.eq_false_iff.mpr (mt hfound.mp hkeeps)]

/-- Digits are found over spaces that are cut in two, and of a text some pieces that are cut beside
its words; where a run of spaces between words is cut in three, the pieces are not found. -/
theorem pieces_found_aroundSpaces :
    ((∃ normal, numericString.normalize [0x31, 0x20, 0x20, 0x32, 0x33] = .ok normal) ∧
        numericString.matchesPattern [0x31, 0x20, 0x20, 0x32, 0x33]
          ⟨none, [[0x20, 0x32]], some [0x33]⟩ = .ok true) ∧
      ((⟨[' ', 'a'], [[' ', ' ', 'b'], []], [' ']⟩ : Cutting Char).KeepsRuns ∧
        caseExact.matchesPattern [0x20, 0x61, 0x20, 0x20, 0x62, 0x20]
          ⟨some [0x20, 0x61], [[0x20, 0x20, 0x62]], none⟩ = .ok true) ∧
      ¬ (⟨['a', ' '], [[' ']], [' ', 'b']⟩ : Cutting Char).KeepsRuns ∧
        caseExact.matchesPattern [0x61, 0x20, 0x20, 0x20, 0x62]
          ⟨some [0x61, 0x20], [[0x20]], some [0x20, 0x62]⟩ = .ok false := by
  obtain ⟨-, hdigits, -, htexts⟩ := pieces_found
  have hkeeps : (⟨[' ', 'a'], [[' ', ' ', 'b'], []], [' ']⟩ : Cutting Char).KeepsRuns := by
    simp [Cutting.KeepsRuns, cutsFrom, BesideWord]
  have hdivides : ¬ (⟨['a', ' '], [[' ']], [' ', 'b']⟩ : Cutting Char).KeepsRuns := by
    simp [Cutting.KeepsRuns, cutsFrom, BesideWord]
  have hone : (∃ normal, numericString.normalize [0x31, 0x20, 0x20, 0x32, 0x33] = .ok normal) :=
    ⟨_, rfl⟩
  refine ⟨⟨hone, ?_⟩, ⟨hkeeps, ?_⟩, hdivides, ?_⟩
  · exact hdigits ⟨[0x31, 0x20], [[0x20, 0x32]], [0x33]⟩ hone _ ⟨.inl rfl, .refl _, .inr rfl⟩
  · exact (htexts ⟨[' ', 'a'], [[' ', ' ', 'b'], []], [' ']⟩).1.mpr hkeeps _
      ⟨.inr rfl, List.sublist_append_left [[0x20, 0x20, 0x62]] [[]], .inl rfl⟩
  · exact (htexts ⟨['a', ' '], [[' ']], [' ', 'b']⟩).2 hdivides

/-- Two words with two spaces between them are not found by their pieces where the spaces are cut
apart: of the two only one is kept, and each piece keeps its own. -/
theorem dividedRun_notFound :
    [0x61, 0x20, 0x20, 0x62] = ([0x61, 0x20] ++ ([0x20] ++ [0x62]) : Octets) ∧
      caseExact.normalize [0x61, 0x20, 0x20, 0x62] = .ok [0x61, 0x20, 0x62] ∧
      caseExact.matchesPattern [0x61, 0x20, 0x20, 0x62]
        ⟨some [0x61, 0x20], [[0x20]], some [0x62]⟩ = .ok false := by
  decide

end DirectoryAccess.Matching
