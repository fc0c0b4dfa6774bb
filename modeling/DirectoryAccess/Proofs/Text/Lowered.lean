import DirectoryAccess.Proofs.Text.Lowercase
import DirectoryAccess.Proofs.Text.Utf8

/-!
# Lower case is final

The lower-case forms of the letters in a run lie in no run
(`CaseRun.misses_of_mem_caseRuns`), so no character that lower-casing leaves has
another lower-case form (`lowerChar_of_mem`), and what was made lower case once is its
own lower-case form (`lowerBetween_lowerBetween`). Nor is there a space in the form of
anything but the space itself (`space_mem_of_lowerBetween`).
-/

namespace DirectoryAccess

/-! ## Runs -/

namespace CaseRun

variable {run other : CaseRun} {point : Nat}

/-- A run holds the points between its bounds that are multiples of its stride from the first. -/
theorem holds_iff : run.holds point = true ↔
    run.first ≤ point ∧ point ≤ run.last ∧ (point - run.first) % run.stride = 0 := by
  simp only [holds, Bool.and_eq_true, decide_eq_true_eq, beq_iff_eq, and_assoc]

/-- Whether the bounds of two runs show that the forms of the first lie below or above the second,
or their strides show that each of them falls between two members of the second. -/
def misses (run other : CaseRun) : Bool :=
  (run.image + (run.last - run.first)).blt other.first || other.last.blt run.image ||
    (run.stride == 2 || run.first == run.last) && other.stride == 2 &&
      (run.image + other.first) % 2 == 1

/-- A run that misses another one has no form in it. -/
theorem holds_lower (hmisses : run.misses other = true) (hpoint : run.holds point = true) :
    other.holds (run.lower point) = false := by
  rw [Bool.eq_false_iff]
  intro hform
  obtain ⟨hfirst, hlast, hstride⟩ := holds_iff.mp hpoint
  obtain ⟨hfirst', hlast', hstride'⟩ := holds_iff.mp hform
  rw [lower] at hfirst' hlast' hstride'
  simp only [misses, Bool.or_eq_true, Bool.and_eq_true, Nat.blt_eq, beq_iff_eq] at hmisses
  rcases hmisses with (hbelow | habove) | ⟨⟨hstep, htwo⟩, hodd⟩
  · omega
  · omega
  · rw [htwo] at hstride'
    rcases hstep with hstep | hstep
    · rw [hstep] at hstride
      omega
    · omega

/-- The run of one character. -/
def only (c : Char) : CaseRun := ⟨c.toNat, c.toNat, 1, c.toNat⟩

theorem holds_only (c : Char) : (only c).holds c.toNat = true :=
  holds_iff.mpr ⟨Nat.le_refl _, Nat.le_refl _, Nat.mod_one _⟩

/-- The runs of the characters that are no lower-case form: the letters, the capital I with a dot,
and the space, which is one only of itself. -/
def reserved : List CaseRun := only '\u0130' :: only ' ' :: caseRuns

/-- No run has a form among the characters that are no lower-case form, which the bounds of any two
runs show. -/
theorem misses_of_mem_caseRuns (hrun : run ∈ caseRuns) (hother : other ∈ reserved) :
    run.misses other = true := by
  have hall : (caseRuns.all fun run => reserved.all run.misses) = true := by decide +kernel
  exact List.all_eq_true.mp (List.all_eq_true.mp hall run hrun) other hother

/-- The form of a letter lies in none of these runs, and is a code point: zero, for which it would
be taken else, lies in none of them either. -/
theorem holds_form (hrun : run ∈ caseRuns) (hpoint : run.holds point = true)
    (hother : other ∈ reserved) : other.holds (Char.ofNat (run.lower point)).toNat = false := by
  by_cases hvalid : (run.lower point).isValidChar
  · rw [Char.toNat, Utf8.toNat_val_ofNat hvalid]
    exact holds_lower (misses_of_mem_caseRuns hrun hother) hpoint
  · have hzero : (reserved.all fun other => !other.holds 0) = true := by decide +kernel
    rw [Char.ofNat, dif_neg hvalid]
    exact (Bool.not_eq_true' _).mp (List.all_eq_true.mp hzero other hother)

end CaseRun

/-! ## Characters -/

/-- A character that lies in no run is its own lower-case form. -/
theorem lowerChar_of_holds {c : Char}
    (h : ∀ run ∈ CaseRun.reserved, run.holds c.toNat = false) : lowerChar c = [c] := by
  have hdot : c ≠ '\u0130' := by
    rintro rfl
    exact Bool.eq_false_iff.mp (h _ List.mem_cons_self) (CaseRun.holds_only '\u0130')
  have hnone : caseRuns.find? (·.holds c.toNat) = none :=
    List.find?_eq_none.mpr fun run hrun =>
      Bool.eq_false_iff.mp (h run (List.mem_cons_of_mem _ (List.mem_cons_of_mem _ hrun)))
  rw [lowerChar, if_neg hdot, hnone]

/-- A character is its own lower-case form, or the capital I with a dot, or in a run. -/
theorem lowerChar_cases (c : Char) :
    lowerChar c = [c] ∨ c = '\u0130' ∧ lowerChar c = ['i', '\u0307'] ∨
      ∃ run ∈ caseRuns, run.holds c.toNat = true ∧
        lowerChar c = [Char.ofNat (run.lower c.toNat)] := by
  rw [lowerChar]
  split
  · rename_i hdot
    exact .inr (.inl ⟨hdot, rfl⟩)
  split
  · rename_i run hrun
    have hholds : run.holds c.toNat = true := by simpa using List.find?_some hrun
    exact .inr (.inr ⟨run, List.mem_of_find?_eq_some hrun, hholds, rfl⟩)
  · exact .inl rfl

/-- What a lower-case form is made of are lower-case forms of themselves. -/
theorem lowerChar_of_mem {c d : Char} (h : d ∈ lowerChar c) : lowerChar d = [d] := by
  rcases lowerChar_cases c with hself | ⟨-, hdot⟩ | ⟨run, hrun, hholds, hform⟩
  · rw [hself, List.mem_singleton] at h
    rw [h, hself]
  · rw [hdot, List.mem_cons, List.mem_singleton] at h
    rcases h with rfl | rfl
    · exact lowerChar_of_lt (by decide)
    · decide +kernel
  · rw [hform, List.mem_singleton] at h
    rw [h]
    exact lowerChar_of_holds fun other hother => CaseRun.holds_form hrun hholds hother

theorem lowerChar_ne_nil (c : Char) : lowerChar c ≠ [] := by
  rcases lowerChar_cases c with h | ⟨-, h⟩ | ⟨run, -, -, h⟩
  all_goals
    rw [h]
    exact List.cons_ne_nil _ _

/-- The space is the form of the space alone. -/
theorem eq_of_space_mem_lowerChar {c : Char} (h : ' ' ∈ lowerChar c) : c = ' ' := by
  rcases lowerChar_cases c with hself | ⟨-, hdot⟩ | ⟨run, hrun, hholds, hform⟩
  · rw [hself, List.mem_singleton] at h
    exact h.symm
  · rw [hdot] at h
    exact absurd h (by decide)
  · rw [hform, List.mem_singleton] at h
    have hnot := CaseRun.holds_form hrun hholds
      (show CaseRun.only ' ' ∈ CaseRun.reserved from List.mem_cons_of_mem _ List.mem_cons_self)
    rw [← h, CaseRun.holds_only] at hnot
    cases hnot

/-! ## Texts -/

section Texts

variable {before after text : List Char} {d : Char}

/-- A sigma is written in one of two ways, both of which are lower-case forms of themselves. -/
theorem lowerChar_lowerSigma (before after : List Char) :
    lowerChar (lowerSigma before after) = [lowerSigma before after] := by
  have hboth : lowerChar 'ς' = ['ς'] ∧ lowerChar 'σ' = ['σ'] := by decide +kernel
  rw [lowerSigma]
  split
  · exact hboth.1
  · exact hboth.2

theorem lowerSigma_ne_space (before after : List Char) : lowerSigma before after ≠ ' ' := by
  rw [lowerSigma]
  split <;> decide

/-- What a text in lower case is made of are lower-case forms of themselves. -/
theorem lowerChar_of_mem_lowerBetween (h : d ∈ lowerBetween before after text) :
    lowerChar d = [d] := by
  induction text generalizing before with
  | nil => exact absurd h List.not_mem_nil
  | cons c text ih =>
      rw [lowerBetween] at h
      rcases List.mem_append.mp h with h | h
      · split at h
        · rw [List.mem_singleton.mp h]
          exact lowerChar_lowerSigma _ _
        · exact lowerChar_of_mem h
      · exact ih h

/-- A text of lower-case forms of themselves is its own lower-case form, wherever it stands. -/
theorem lowerBetween_eq_self (h : ∀ c ∈ text, lowerChar c = [c]) (before after : List Char) :
    lowerBetween before after text = text := by
  have hsigma : 'Σ' ∉ text := fun hmem => absurd (h 'Σ' hmem) (by decide +kernel)
  rw [lowerBetween_of_not_mem hsigma, List.flatMap_def, List.map_congr_left h,
    ← List.flatMap_def, List.flatMap_singleton']

/-- **Lower case is final.** A text in lower case is its own lower-case form, also where it stands
among others. -/
theorem lowerBetween_lowerBetween (before after front back text : List Char) :
    lowerBetween front back (lowerBetween before after text) = lowerBetween before after text :=
  lowerBetween_eq_self (fun _ => lowerChar_of_mem_lowerBetween) front back

theorem lowerBetween_eq_nil_iff : lowerBetween before after text = [] ↔ text = [] := by
  cases text with
  | nil => exact iff_of_true rfl rfl
  | cons c text =>
      rw [lowerBetween]
      refine iff_of_false (List.append_ne_nil_of_left_ne_nil ?_ _) (List.cons_ne_nil c text)
      split
      · exact List.cons_ne_nil _ _
      · exact lowerChar_ne_nil c

/-- A space in a text in lower case was one in the text. -/
theorem space_mem_of_lowerBetween (h : ' ' ∈ lowerBetween before after text) : ' ' ∈ text := by
  induction text generalizing before with
  | nil => exact absurd h List.not_mem_nil
  | cons c text ih =>
      rw [lowerBetween] at h
      rcases List.mem_append.mp h with h | h
      · split at h
        · exact absurd (List.mem_singleton.mp h).symm (lowerSigma_ne_space _ _)
        · exact eq_of_space_mem_lowerChar h ▸ List.mem_cons_self
      · exact List.mem_cons_of_mem c (ih h)

end Texts

end DirectoryAccess
