import Mathlib.Algebra.GroupWithZero.Nat
import DirectoryAccess.Proofs.Matching.Substrings

/-!
# Placed parts

A value is found to match a pattern exactly if all normal forms exist and the parts
can be placed (`matchesPattern_eq_true_iff`). A placement stays one when parts are
left out, for what they stood on joins the gaps; so a pattern with fewer of the same
parts matches wherever the whole pattern does (`matchesPattern_of_partOf`).
-/

namespace DirectoryAccess

/-- Whether a pattern has only parts of another one, in the same places. -/
structure SubstringPattern.PartOf (few all : SubstringPattern) : Prop where
  /-- The beginning is the same, or missing. -/
  initial : few.initial = none ∨ few.initial = all.initial
  /-- Of the parts in between some are missing. -/
  any : few.any.Sublist all.any
  /-- The end is the same, or missing. -/
  final : few.final = none ∨ few.final = all.final

/-- A pattern is part of itself. -/
theorem SubstringPattern.PartOf.refl (pattern : SubstringPattern) : pattern.PartOf pattern :=
  ⟨.inr rfl, List.Sublist.refl _, .inr rfl⟩

namespace Matching

/-! ## Parts in order -/

/-- Whether parts come in a text in order and without overlap, and the given end behind them. -/
def Follow {α : Type} (final : List α) : List (List α) → List α → Prop
  | [], text => final <:+ text
  | part :: parts, text => ∃ gap rest, text = gap ++ (part ++ rest) ∧ Follow final parts rest

section Follow

variable {α : Type} {final text : List α} {parts : List (List α)}

/-- What comes behind a place comes behind every place in front of it. -/
theorem Follow.append_left (front : List α) (h : Follow final parts text) :
    Follow final parts (front ++ text) := by
  cases parts with
  | nil => exact h.trans (List.suffix_append front text)
  | cons part parts =>
      obtain ⟨gap, rest, rfl, hrest⟩ := h
      exact ⟨front ++ gap, rest, (List.append_assoc _ _ _).symm, hrest⟩

/-- Parts that are left out leave the others where they are. -/
theorem Follow.sublist {few : List (List α)} (hsub : few.Sublist parts)
    (h : Follow final parts text) : Follow final few text := by
  induction hsub generalizing text with
  | slnil => exact h
  | cons part _ ih =>
      obtain ⟨gap, rest, rfl, hrest⟩ := h
      rw [← List.append_assoc]
      exact (ih hrest).append_left (gap ++ part)
  | cons_cons part _ ih =>
      obtain ⟨gap, rest, rfl, hrest⟩ := h
      exact ⟨gap, rest, rfl, ih hrest⟩

/-- An end that is left out leaves the parts where they are. -/
theorem Follow.of_final (h : Follow final parts text) : Follow [] parts text := by
  induction parts generalizing text with
  | nil => exact List.nil_suffix
  | cons part parts ih =>
      obtain ⟨gap, rest, rfl, hrest⟩ := h
      exact ⟨gap, rest, rfl, ih hrest⟩

/-- Parts and an end that make up a text come in it. -/
theorem follow_flatten (final : List α) (parts : List (List α)) :
    Follow final parts (parts.flatten ++ final) := by
  induction parts with
  | nil => exact List.suffix_rfl
  | cons part parts ih => exact ⟨[], _, by rw [List.flatten_cons, List.append_assoc]; rfl, ih⟩

/-- What is placed takes up no more than there is. -/
theorem Follow.sum_le (h : Follow final parts text) (size : List α → Nat)
    (hsize : ∀ x y, size (x ++ y) = size x + size y) :
    (parts.map size).sum + size final ≤ size text := by
  induction parts generalizing text with
  | nil =>
      obtain ⟨front, rfl⟩ := h
      rw [List.map_nil, List.sum_nil, hsize]
      omega
  | cons part parts ih =>
      obtain ⟨gap, rest, rfl, hrest⟩ := h
      have hle := ih hrest
      rw [List.map_cons, List.sum_cons, hsize, hsize]
      omega

end Follow

/-- Parts come in order with an end behind them exactly if there are gaps for all of them. -/
theorem exists_gaps_iff_follow (final value : Octets) (parts : List Octets) :
    (∃ gap gaps, gaps.length = parts.length ∧ value = gap ++ spread parts gaps ++ final) ↔
      Follow final parts value := by
  induction parts generalizing value with
  | nil =>
      constructor
      · rintro ⟨gap, gaps, -, rfl⟩
        rw [spread_nil, List.append_nil]
        exact List.suffix_append gap final
      · rintro ⟨gap, rfl⟩
        exact ⟨gap, [], rfl, by rw [spread_nil, List.append_nil]⟩
  | cons part parts ih =>
      constructor
      · rintro ⟨gap, _ | ⟨next, gaps⟩, hlength, rfl⟩
        · cases hlength
        refine ⟨gap, next ++ spread parts gaps ++ final, ?_, (ih _).mp ⟨next, gaps, ?_, rfl⟩⟩
        · rw [spread_cons]
          simp only [List.append_assoc]
        · exact Nat.succ.inj hlength
      · rintro ⟨gap, rest, rfl, hrest⟩
        obtain ⟨next, gaps, hlength, rfl⟩ := (ih rest).mpr hrest
        refine ⟨gap, next :: gaps, congrArg Nat.succ hlength, ?_⟩
        rw [spread_cons]
        simp only [List.append_assoc]

namespace Rule

variable {rule : Rule} {value : Octets}

/-! ## Matching as placement -/

/-- A list is read as what each of its members is read as. -/
theorem mapM_of_forall {α β : Type} {f : α → Except Failure β} {g : α → β} {xs : List α}
    (h : ∀ x ∈ xs, f x = .ok (g x)) : xs.mapM f = .ok (xs.map g) := by
  induction xs with
  | nil => rfl
  | cons x xs ih =>
      rw [List.mapM_cons, h x List.mem_cons_self, ih fun y hy => h y (List.mem_cons_of_mem x hy)]
      rfl

/-- Where the parts in between have been found, they have normal forms. -/
theorem exists_mapM_of_afterAny {parts : List Octets} {rest : Octets}
    (h : rule.afterAny value parts = .ok (some rest)) :
    ∃ fragments, parts.mapM (rule.normalizePart .any) = .ok fragments := by
  induction parts generalizing value with
  | nil => exact ⟨[], rfl⟩
  | cons part parts ih =>
      rw [afterAny] at h
      obtain ⟨fragment, hfragment, h⟩ := bind_eq_ok_iff.mp h
      obtain ⟨fragments, hfragments⟩ :
          ∃ fragments, parts.mapM (rule.normalizePart .any) = .ok fragments := by
        split at h
        · exact ih h
        · split at h
          · exact ih h
          · cases h
      exact ⟨fragment :: fragments, by rw [List.mapM_cons, hfragment, hfragments]; rfl⟩

/-- Where a pattern has been found, all its parts have normal forms. -/
theorem exists_normal_of_matchesPattern {pattern : SubstringPattern}
    (h : rule.matchesPattern value pattern = .ok true) :
    ∃ v i parts f, rule.normalize value = .ok v ∧
      rule.normalizePart? .initial pattern.initial = .ok i ∧
      pattern.any.mapM (rule.normalizePart .any) = .ok parts ∧
      rule.normalizePart? .final pattern.final = .ok f := by
  rw [matchesPattern] at h
  obtain ⟨v, hv, h⟩ := bind_eq_ok_iff.mp h
  obtain ⟨rest, hinitial, h⟩ := bind_eq_ok_iff.mp h
  obtain ⟨i, hi⟩ : ∃ i, rule.normalizePart? .initial pattern.initial = .ok i := by
    cases hpart : pattern.initial with
    | none => exact ⟨[], rfl⟩
    | some part =>
        rw [hpart, afterInitial] at hinitial
        obtain ⟨i, hi, -⟩ := bind_eq_ok_iff.mp hinitial
        exact ⟨i, hi⟩
  cases rest with
  | none => cases h
  | some rest =>
      obtain ⟨last, hany, h⟩ := bind_eq_ok_iff.mp h
      cases last with
      | none => cases h
      | some last =>
          obtain ⟨parts, hparts⟩ := exists_mapM_of_afterAny hany
          change rule.endsWith last pattern.final = .ok true at h
          obtain ⟨f, hf⟩ : ∃ f, rule.normalizePart? .final pattern.final = .ok f := by
            cases hpart : pattern.final with
            | none => exact ⟨[], rfl⟩
            | some part =>
                rw [hpart, endsWith] at h
                obtain ⟨f, hf, -⟩ := bind_eq_ok_iff.mp h
                exact ⟨f, hf⟩
          exact ⟨v, i, parts, f, hv, hi, hparts, hf⟩

/-- What is found where the normal forms exist is whether the parts can be placed. -/
theorem exists_matchesPattern_of_normal {v i f : Octets} {pattern : SubstringPattern}
    {parts : List Octets} (hv : rule.normalize value = .ok v)
    (hi : rule.normalizePart? .initial pattern.initial = .ok i)
    (hparts : pattern.any.mapM (rule.normalizePart .any) = .ok parts)
    (hf : rule.normalizePart? .final pattern.final = .ok f) :
    ∃ found, rule.matchesPattern value pattern = .ok found ∧
      (found = true ↔ ∃ rest, v = i ++ rest ∧ Follow f parts rest) := by
  obtain ⟨found, hmatches, hfound⟩ := matchesPattern_eq_ok hv hi hparts hf
  refine ⟨found, hmatches, hfound.trans ?_⟩
  constructor
  · rintro ⟨gap, gaps, hlength, rfl⟩
    refine ⟨gap ++ spread parts gaps ++ f, by simp only [List.append_assoc], ?_⟩
    exact (exists_gaps_iff_follow f _ parts).mp ⟨gap, gaps, hlength, rfl⟩
  · rintro ⟨rest, rfl, hrest⟩
    obtain ⟨gap, gaps, hlength, rfl⟩ := (exists_gaps_iff_follow f rest parts).mpr hrest
    exact ⟨gap, gaps, hlength, by simp only [List.append_assoc]⟩

/-- A value is found to match a pattern exactly if all normal forms exist and the parts can be
placed. -/
theorem matchesPattern_eq_true_iff {pattern : SubstringPattern} :
    rule.matchesPattern value pattern = .ok true ↔
      ∃ v i parts f, rule.normalize value = .ok v ∧
        rule.normalizePart? .initial pattern.initial = .ok i ∧
        pattern.any.mapM (rule.normalizePart .any) = .ok parts ∧
        rule.normalizePart? .final pattern.final = .ok f ∧
        ∃ rest, v = i ++ rest ∧ Follow f parts rest := by
  constructor
  · intro h
    obtain ⟨v, i, parts, f, hv, hi, hparts, hf⟩ := exists_normal_of_matchesPattern h
    obtain ⟨found, hmatches, hfound⟩ := exists_matchesPattern_of_normal hv hi hparts hf
    exact ⟨v, i, parts, f, hv, hi, hparts, hf, hfound.mp (Except.ok.inj (hmatches.symm.trans h))⟩
  · rintro ⟨v, i, parts, f, hv, hi, hparts, hf, hplaced⟩
    obtain ⟨found, hmatches, hfound⟩ := exists_matchesPattern_of_normal hv hi hparts hf
    rw [hmatches, hfound.mpr hplaced]

/-! ## Parts left out -/

/-- Some members of a list that is read are read as some of the members of what it is read as. -/
theorem exists_sublist_of_mapM {f : Octets → Except Failure Octets} {few all : List Octets}
    (hsub : few.Sublist all) {ys : List Octets} (h : all.mapM f = .ok ys) :
    ∃ xs, few.mapM f = .ok xs ∧ xs.Sublist ys := by
  induction hsub generalizing ys with
  | slnil => exact ⟨ys, h, List.Sublist.refl ys⟩
  | cons a _ ih =>
      rw [List.mapM_cons] at h
      obtain ⟨y, hy, h⟩ := bind_eq_ok_iff.mp h
      obtain ⟨ys, hys, h⟩ := bind_eq_ok_iff.mp h
      obtain rfl := Except.ok.inj h
      obtain ⟨xs, hxs, hsub⟩ := ih hys
      exact ⟨xs, hxs, hsub.cons y⟩
  | cons_cons a _ ih =>
      rw [List.mapM_cons] at h
      obtain ⟨y, hy, h⟩ := bind_eq_ok_iff.mp h
      obtain ⟨ys, hys, h⟩ := bind_eq_ok_iff.mp h
      obtain rfl := Except.ok.inj h
      obtain ⟨xs, hxs, hsub⟩ := ih hys
      exact ⟨y :: xs, by rw [List.mapM_cons, hy, hxs]; rfl, hsub.cons_cons y⟩

/-- A value that matches a pattern matches it without some of its parts, too. -/
theorem matchesPattern_of_partOf {few all : SubstringPattern} (hpart : few.PartOf all)
    (h : rule.matchesPattern value all = .ok true) :
    rule.matchesPattern value few = .ok true := by
  obtain ⟨v, i, parts, f, hv, hi, hparts, hf, rest, rfl, hrest⟩ := matchesPattern_eq_true_iff.mp h
  obtain ⟨fewParts, hfew, hsub⟩ := exists_sublist_of_mapM hpart.any hparts
  obtain ⟨f', hf', hrest⟩ : ∃ f', rule.normalizePart? .final few.final = .ok f' ∧
      Follow f' fewParts rest := by
    rcases hpart.final with hnone | hsame
    · exact ⟨[], by rw [hnone]; rfl, (hrest.sublist hsub).of_final⟩
    · exact ⟨f, by rw [hsame, hf], hrest.sublist hsub⟩
  rw [matchesPattern_eq_true_iff]
  rcases hpart.initial with hnone | hsame
  · exact ⟨i ++ rest, [], fewParts, f', hv, by rw [hnone]; rfl, hfew, hf', i ++ rest, rfl,
      hrest.append_left i⟩
  · exact ⟨i ++ rest, i, fewParts, f', hv, by rw [hsame, hi], hfew, hf', rest, rfl, hrest⟩

end Rule

end Matching

end DirectoryAccess
