import DirectoryAccess.Text.Lowercase

/-!
# Lower case in its surroundings

The lower-case form of a part of a text depends on what stands around the part only
through two questions: whether a cased character comes first in front of it, and
whether one comes first behind it (`lowerBetween_congr`). A part asks the first one
if it begins on a capital sigma, and the second one if it ends on one; every other
part has one lower-case form wherever it stands (`lowerBetween_eq`).
-/

namespace DirectoryAccess

/-- The lower-case form of a text that stands between `before`, read backwards, and `after`. -/
def lowerBetween (before after : List Char) : List Char → List Char
  | [] => []
  | c :: text =>
    (if c = 'Σ' then [lowerSigma before (text ++ after)] else lowerChar c) ++
      lowerBetween (c :: before) after text

section Lower

variable {before after text : List Char}

/-- Characters that have been lower-cased stay in front of the others. -/
theorem lowercaseFrom_eq (before lowered text : List Char) :
    lowercaseFrom before lowered text = lowered.reverse ++ lowerBetween before [] text := by
  induction text generalizing before lowered with
  | nil => exact (List.append_nil _).symm
  | cons c text ih =>
      rw [lowercaseFrom, lowerBetween, ih, List.reverse_append, List.reverse_reverse,
        List.append_nil, List.append_assoc]

/-- A text is lower-cased with nothing around it. -/
theorem lowercase_eq (text : String) :
    lowercase text = String.ofList (lowerBetween [] [] text.toList) := by
  rw [lowercase, lowercaseFrom_eq]
  rfl

/-- The parts of a text are lower-cased each beside the other. -/
theorem lowerBetween_append (before after front back : List Char) :
    lowerBetween before after (front ++ back) =
      lowerBetween before (back ++ after) front ++
        lowerBetween (front.reverse ++ before) after back := by
  induction front generalizing before with
  | nil => rfl
  | cons c front ih =>
      rw [List.cons_append, lowerBetween, lowerBetween, ih, List.append_assoc, List.append_assoc,
        List.reverse_cons, List.append_assoc]
      rfl

/-! ## What the surroundings decide -/

/-- Characters that are not case-ignorable hide what stands behind them. -/
theorem meetsCased_append (front back : List Char) :
    meetsCased (front ++ back) =
      if front.all caseIgnorableChars.holds then meetsCased back else meetsCased front := by
  induction front with
  | nil => rfl
  | cons c front ih =>
      by_cases hc : caseIgnorableChars.holds c = true
      · simp only [meetsCased, List.cons_append, List.dropWhile_cons_of_pos hc, List.all_cons, hc,
          Bool.true_and] at ih ⊢
        exact ih
      · simp only [meetsCased, List.cons_append, List.dropWhile_cons_of_neg hc, List.all_cons,
          Bool.eq_false_iff.mpr hc, Bool.false_and, Bool.false_eq_true, if_false]

/-- In case-ignorable characters no cased one is met. -/
theorem meetsCased_of_all {text : List Char} (h : text.all caseIgnorableChars.holds = true) :
    meetsCased text = false := by
  rw [← List.append_nil text, meetsCased_append, if_pos h]
  rfl

/-- The surroundings decide no more than whether they begin, seen from the text, with a cased
character. -/
theorem lowerBetween_congr {before' after' : List Char}
    (hbefore : meetsCased before = meetsCased before')
    (hafter : meetsCased after = meetsCased after') (text : List Char) :
    lowerBetween before after text = lowerBetween before' after' text := by
  induction text generalizing before before' with
  | nil => rfl
  | cons c text ih =>
      have hsigma : lowerSigma before (text ++ after) = lowerSigma before' (text ++ after') := by
        rw [lowerSigma, lowerSigma, hbefore, meetsCased_append, meetsCased_append, hafter]
      have hnext : meetsCased ([c] ++ before) = meetsCased ([c] ++ before') := by
        rw [meetsCased_append, meetsCased_append, hbefore]
      rw [lowerBetween, lowerBetween, hsigma]
      exact congrArg (_ ++ ·) (ih hnext)

/-! ## Capital sigmas -/

theorem ignorable_sigma : caseIgnorableChars.holds 'Σ' = false := by decide +kernel

theorem cased_sigma : casedChars.holds 'Σ' = true := by decide +kernel

/-- A capital sigma is met as a cased character. -/
theorem meetsCased_sigma (text : List Char) : meetsCased ('Σ' :: text) = true := by
  rw [meetsCased, List.dropWhile_cons_of_neg (Bool.eq_false_iff.mp ignorable_sigma)]
  exact cased_sigma

/-- Case-ignorable characters contain no capital sigma. -/
theorem sigma_not_mem_of_all {text : List Char} (h : text.all caseIgnorableChars.holds = true) :
    'Σ' ∉ text := fun hmem =>
  Bool.eq_false_iff.mp ignorable_sigma (List.all_eq_true.mp h 'Σ' hmem)

/-- A text without a capital sigma asks for nothing around it. -/
theorem lowerBetween_of_not_mem (h : 'Σ' ∉ text) (before after : List Char) :
    lowerBetween before after text = text.flatMap lowerChar := by
  induction text generalizing before with
  | nil => rfl
  | cons c text ih =>
      obtain ⟨hc, hrest⟩ := List.ne_and_not_mem_of_not_mem_cons h
      rw [lowerBetween, if_neg (Ne.symm hc), ih hrest, List.flatMap_cons]

/-- Whether a capital sigma behind a cased character ends the text, case-ignorable characters not
counted: it ends a word unless a cased character comes first behind the text. -/
def EndsOnSigma (text : List Char) : Prop :=
  ∃ front back, text = front ++ 'Σ' :: back ∧ meetsCased front.reverse = true ∧
    back.all caseIgnorableChars.holds = true

/-- Whether the text begins, case-ignorable characters not counted, on a capital sigma with no
cased character first behind it: it ends a word if a cased character comes first in front of the
text. -/
def BeginsOnSigma (text : List Char) : Prop :=
  ∃ front back, text = front ++ 'Σ' :: back ∧ front.all caseIgnorableChars.holds = true ∧
    meetsCased back = false

/-- A text does not end on a sigma if it ends with another character that counts. -/
theorem not_endsOnSigma_concat {c : Char} (hcounts : caseIgnorableChars.holds c = false)
    (hne : c ≠ 'Σ') (text : List Char) : ¬ EndsOnSigma (text ++ [c]) := by
  rintro ⟨front, back, htext, -, hback⟩
  have hlast := congrArg List.getLast? htext
  rw [List.getLast?_concat, List.getLast?_append, List.getLast?_cons, Option.some_or] at hlast
  rcases List.mem_cons.mp (List.mem_of_getLast? (List.getLast?_cons.trans hlast.symm)) with hc | hc
  · exact hne hc
  · have hignorable := List.all_eq_true.mp hback c hc
    rw [hcounts] at hignorable
    cases hignorable

/-- A text does not begin on a sigma if it begins with another character that counts. -/
theorem not_beginsOnSigma_cons {c : Char} (hcounts : caseIgnorableChars.holds c = false)
    (hne : c ≠ 'Σ') (text : List Char) : ¬ BeginsOnSigma (c :: text) := by
  rintro ⟨_ | ⟨d, front⟩, back, htext, hfront, -⟩
  · exact hne (List.cons.inj htext).1
  · obtain ⟨rfl, -⟩ := List.cons.inj htext
    rw [List.all_cons, hcounts] at hfront
    cases hfront

/-- A text has one lower-case form wherever it stands, but for a capital sigma at an end of it that
has a cased character beyond that end. -/
theorem lowerBetween_eq (hends : EndsOnSigma text → meetsCased after = false)
    (hbegins : BeginsOnSigma text → meetsCased before = false) :
    lowerBetween before after text = lowerBetween [] [] text := by
  suffices hpart : ∀ back front, text = front ++ back →
      lowerBetween (front.reverse ++ before) after back = lowerBetween front.reverse [] back from
    hpart text [] rfl
  intro back
  induction back with
  | nil => exact fun _ _ => rfl
  | cons c back ih =>
      intro front htext
      have hrest := ih (front ++ [c]) (by rw [htext, List.append_assoc]; rfl)
      rw [List.reverse_append, List.reverse_singleton, List.singleton_append] at hrest
      rw [lowerBetween, lowerBetween, List.append_nil, ← hrest, List.cons_append]
      by_cases hc : c = 'Σ'
      · subst hc
        have hsigma : lowerSigma (front.reverse ++ before) (back ++ after) =
            lowerSigma front.reverse back := by
          rw [lowerSigma, lowerSigma, meetsCased_append, meetsCased_append, List.all_reverse]
          by_cases hfront : front.all caseIgnorableChars.holds = true
          · have hown : meetsCased front.reverse = false :=
              meetsCased_of_all (by rw [List.all_reverse, hfront])
            rw [if_pos hfront, hown]
            by_cases hback : meetsCased back = true
            · have hall : ¬ back.all caseIgnorableChars.holds = true := fun hall =>
                absurd (meetsCased_of_all hall) (by rw [hback]; exact Bool.noConfusion)
              rw [if_neg hall, hback, Bool.not_true, Bool.and_false, Bool.false_and]
            · rw [hbegins ⟨front, back, htext, hfront, Bool.eq_false_iff.mpr hback⟩,
                Bool.false_and, Bool.false_and]
          · rw [if_neg hfront]
            by_cases hcased : meetsCased front.reverse = true
            · by_cases hback : back.all caseIgnorableChars.holds = true
              · rw [if_pos hback, hends ⟨front, back, htext, hcased, hback⟩,
                  meetsCased_of_all hback]
              · rw [if_neg hback]
            · rw [Bool.eq_false_iff.mpr hcased, Bool.false_and, Bool.false_and]
        rw [if_pos rfl, if_pos rfl, hsigma]
      · rw [if_neg hc, if_neg hc]

/-- A text that ends on a capital sigma has it written otherwise where a cased character comes
first behind the text. -/
theorem lowerBetween_of_endsOnSigma (h : EndsOnSigma text) (hbefore : meetsCased before = false)
    (hafter : meetsCased after = true) :
    ∃ x y, lowerBetween [] [] text = x ++ 'ς' :: y ∧
      lowerBetween before after text = x ++ 'σ' :: y := by
  obtain ⟨front, back, rfl, hfront, hback⟩ := h
  have hx : lowerBetween before ('Σ' :: back ++ after) front =
      lowerBetween [] ('Σ' :: back ++ []) front :=
    lowerBetween_congr hbefore ((meetsCased_sigma _).trans (meetsCased_sigma _).symm) front
  have hown : lowerSigma (front.reverse ++ []) (back ++ []) = 'ς' := by
    rw [lowerSigma, List.append_nil, List.append_nil, hfront, meetsCased_of_all hback]
    rfl
  have hother : lowerSigma (front.reverse ++ before) (back ++ after) = 'σ' := by
    rw [lowerSigma, meetsCased_append back, if_pos hback, hafter, Bool.not_true, Bool.and_false]
    rfl
  have hnot : 'Σ' ∉ back := sigma_not_mem_of_all hback
  refine ⟨lowerBetween [] ('Σ' :: back ++ []) front, back.flatMap lowerChar, ?_, ?_⟩
  · rw [lowerBetween_append, lowerBetween, if_pos rfl, hown, lowerBetween_of_not_mem hnot]
    rfl
  · rw [lowerBetween_append, lowerBetween, if_pos rfl, hother, lowerBetween_of_not_mem hnot, hx]
    rfl

/-- A text that begins on a capital sigma has it written otherwise where a cased character comes
first in front of the text. -/
theorem lowerBetween_of_beginsOnSigma (h : BeginsOnSigma text) (hbefore : meetsCased before = true)
    (hafter : meetsCased after = false) :
    ∃ x y, lowerBetween [] [] text = x ++ 'σ' :: y ∧
      lowerBetween before after text = x ++ 'ς' :: y := by
  obtain ⟨front, back, rfl, hfront, hback⟩ := h
  have hreverse : front.reverse.all caseIgnorableChars.holds = true := by
    rw [List.all_reverse, hfront]
  have hown : lowerSigma (front.reverse ++ []) (back ++ []) = 'σ' := by
    rw [lowerSigma, List.append_nil, meetsCased_of_all hreverse, Bool.false_and]
    rfl
  have hother : lowerSigma (front.reverse ++ before) (back ++ after) = 'ς' := by
    rw [lowerSigma, meetsCased_append, meetsCased_append, if_pos hreverse, hbefore, hafter, hback,
      ite_self]
    rfl
  have hy : lowerBetween ('Σ' :: (front.reverse ++ before)) after back =
      lowerBetween ('Σ' :: (front.reverse ++ [])) [] back :=
    lowerBetween_congr ((meetsCased_sigma _).trans (meetsCased_sigma _).symm) hafter back
  have hnot : 'Σ' ∉ front := sigma_not_mem_of_all hfront
  refine ⟨front.flatMap lowerChar, lowerBetween ('Σ' :: (front.reverse ++ [])) [] back, ?_, ?_⟩
  · rw [lowerBetween_append, lowerBetween, if_pos rfl, hown, lowerBetween_of_not_mem hnot]
    rfl
  · rw [lowerBetween_append, lowerBetween, if_pos rfl, hother, lowerBetween_of_not_mem hnot, hy]
    rfl

/-! ## Sigmas that are gained and lost -/

/-- A text that ends on a capital sigma has one final sigma less where a cased character comes
first behind it. -/
theorem count_lowerBetween_lt_of_ends (h : EndsOnSigma text) (hbefore : meetsCased before = false)
    (hafter : meetsCased after = true) :
    (lowerBetween before after text).count 'ς' < (lowerBetween [] [] text).count 'ς' := by
  obtain ⟨x, y, hown, hother⟩ := lowerBetween_of_endsOnSigma h hbefore hafter
  have hne : ('σ' == 'ς') = false := by decide
  rw [hown, hother, List.count_append, List.count_append, List.count_cons, List.count_cons, hne,
    if_neg Bool.false_ne_true, if_pos (beq_self_eq_true 'ς')]
  omega

/-- Without a cased character first in front of it, a text has no more final sigmas than alone. -/
theorem count_lowerBetween_le_of_before (hbefore : meetsCased before = false) :
    (lowerBetween before after text).count 'ς' ≤ (lowerBetween [] [] text).count 'ς' := by
  by_cases h : EndsOnSigma text ∧ meetsCased after = true
  · exact Nat.le_of_lt (count_lowerBetween_lt_of_ends h.1 hbefore h.2)
  · have hafter : EndsOnSigma text → meetsCased after = false := fun hsigma =>
      Bool.eq_false_iff.mpr fun hcased => h ⟨hsigma, hcased⟩
    exact Nat.le_of_eq (congrArg (List.count 'ς') (lowerBetween_eq hafter fun _ => hbefore))

/-- A text that begins on a capital sigma has one medial sigma less where a cased character comes
first in front of it. -/
theorem count_lowerBetween_lt_of_begins (h : BeginsOnSigma text)
    (hbefore : meetsCased before = true) (hafter : meetsCased after = false) :
    (lowerBetween before after text).count 'σ' < (lowerBetween [] [] text).count 'σ' := by
  obtain ⟨x, y, hown, hother⟩ := lowerBetween_of_beginsOnSigma h hbefore hafter
  have hne : ('ς' == 'σ') = false := by decide
  rw [hown, hother, List.count_append, List.count_append, List.count_cons, List.count_cons, hne,
    if_neg Bool.false_ne_true, if_pos (beq_self_eq_true 'σ')]
  omega

/-- Without a cased character first behind it, a text has no more medial sigmas than alone. -/
theorem count_lowerBetween_le_of_after (hafter : meetsCased after = false) :
    (lowerBetween before after text).count 'σ' ≤ (lowerBetween [] [] text).count 'σ' := by
  by_cases h : BeginsOnSigma text ∧ meetsCased before = true
  · exact Nat.le_of_lt (count_lowerBetween_lt_of_begins h.1 h.2 hafter)
  · have hbefore : BeginsOnSigma text → meetsCased before = false := fun hsigma =>
      Bool.eq_false_iff.mpr fun hcased => h ⟨hsigma, hcased⟩
    exact Nat.le_of_eq (congrArg (List.count 'σ') (lowerBetween_eq (fun _ => hafter) hbefore))

/-! ## Characters of ASCII -/

/-- A character below 128 is lower-cased as one of ASCII. -/
theorem lowerChar_of_lt {c : Char} (h : c.toNat < 0x80) : lowerChar c = [c.toLower] := by
  have hall : ∀ n < 0x80, lowerChar (Char.ofNat n) = [(Char.ofNat n).toLower] := by
    decide +kernel
  have hc := hall c.toNat h
  rwa [Char.ofNat_toNat] at hc

/-- In a text of ASCII characters the capital letters become small ones. -/
theorem lowerBetween_of_lt (h : ∀ c ∈ text, c.toNat < 0x80) (before after : List Char) :
    lowerBetween before after text = text.map Char.toLower := by
  have hnot : 'Σ' ∉ text := fun hmem => absurd (h 'Σ' hmem) (by decide)
  rw [lowerBetween_of_not_mem hnot]
  induction text with
  | nil => rfl
  | cons c text ih =>
      obtain ⟨hc, hrest⟩ := List.forall_mem_cons.mp h
      rw [List.flatMap_cons, lowerChar_of_lt hc, ih hrest fun hmem =>
        hnot (List.mem_cons_of_mem c hmem)]
      rfl

end Lower

end DirectoryAccess
