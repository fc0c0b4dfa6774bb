import DirectoryAccess.Matching.StandardRules
import DirectoryAccess.Proofs.Answer
import DirectoryAccess.Proofs.Ber.Checked

/-!
# Patterns found in a value

A pattern matches if its parts can be placed in the normal form of the value, in
order and without overlap. The search for them never goes back: it takes each part
at its leftmost place behind the one before. Nothing is lost by this, because the
leftmost place leaves everything to be searched that any other place leaves
(`afterFirst?_of_eq`), so a placement is found if there is one
(`exists_placement_iff`). A search by places in one string of octets, each slice of it
checked, never leaves the string (`Checked.matchesPattern_eq`).
-/

namespace DirectoryAccess.Matching

open Ber (slice? slice?_eq sub? sub?_eq)

/-! ## Leftmost places -/

section Leftmost

variable {fragment value rest : Octets}

/-- What is found is the fragment, with something in front of it and the rest behind it. -/
theorem eq_of_afterFirst? (h : afterFirst? fragment value = some rest) :
    ∃ gap, value = gap ++ fragment ++ rest := by
  induction value with
  | nil =>
      simp only [afterFirst?, Option.ite_none_right_eq_some, List.isEmpty_iff,
        Option.some.injEq] at h
      obtain ⟨rfl, rfl⟩ := h
      exact ⟨[], rfl⟩
  | cons b value ih =>
      rw [afterFirst?] at h
      split at h
      · rename_i hprefix
        obtain ⟨tail, htail⟩ := List.isPrefixOf_iff_prefix.mp hprefix
        rw [← htail, List.drop_left] at h
        exact ⟨[], by rw [← htail, ← Option.some.inj h, List.nil_append]⟩
      · obtain ⟨gap, hgap⟩ := ih h
        exact ⟨b :: gap, by rw [hgap]; rfl⟩

/-- Wherever a fragment stands, it is found, and what stands behind it there is left to be
searched. -/
theorem afterFirst?_of_eq {gap tail : Octets} (h : value = gap ++ fragment ++ tail) :
    ∃ skipped, afterFirst? fragment value = some (skipped ++ tail) := by
  induction value generalizing gap with
  | nil =>
      obtain ⟨hfront, rfl⟩ := List.append_eq_nil_iff.mp h.symm
      obtain ⟨-, rfl⟩ := List.append_eq_nil_iff.mp hfront
      exact ⟨[], rfl⟩
  | cons b value ih =>
      rw [afterFirst?]
      split
      · refine ⟨(gap ++ fragment).drop fragment.length, ?_⟩
        rw [h, List.drop_append_of_le_length (by rw [List.length_append]; omega)]
      · rename_i hprefix
        cases gap with
        | nil =>
            rw [h, List.nil_append] at hprefix
            exact absurd (List.isPrefixOf_iff_prefix.mpr (List.prefix_append fragment tail)) hprefix
        | cons c gap =>
            rw [List.cons_append, List.cons_append] at h
            exact ih (List.cons.inj h).2

/-- A fragment in front is found there. -/
theorem afterFirst?_append (fragment rest : Octets) :
    afterFirst? fragment (fragment ++ rest) = some rest := by
  cases h : fragment ++ rest with
  | nil =>
      obtain ⟨rfl, rfl⟩ := List.append_eq_nil_iff.mp h
      rfl
  | cons b octets =>
      have hprefix : fragment.isPrefixOf (b :: octets) = true := by
        rw [← h, List.isPrefixOf_iff_prefix]
        exact List.prefix_append fragment rest
      rw [afterFirst?, if_pos hprefix, ← h, List.drop_left]

/-- A fragment that is not in front is sought behind the first octet. -/
theorem afterFirst?_cons {b : UInt8} (h : ¬ fragment <+: b :: value) :
    afterFirst? fragment (b :: value) = afterFirst? fragment value := by
  rw [afterFirst?, if_neg (fun hprefix => h (List.isPrefixOf_iff_prefix.mp hprefix))]

/-- A fragment that is longer than the value is not found. -/
theorem afterFirst?_of_length_lt (h : value.length < fragment.length) :
    afterFirst? fragment value = none := by
  rw [Option.eq_none_iff_forall_ne_some]
  intro rest hfound
  obtain ⟨gap, rfl⟩ := eq_of_afterFirst? hfound
  simp only [List.length_append] at h
  omega

theorem afterFirst?_nil (value : Octets) : afterFirst? [] value = some value := by
  cases value <;> rfl

end Leftmost

/-! ## Placements -/

/-- Parts in order, each with a gap behind it. -/
def spread (parts gaps : List Octets) : Octets := (List.zipWith (· ++ ·) parts gaps).flatten

@[simp] theorem spread_nil (gaps : List Octets) : spread [] gaps = [] := by
  rw [spread, List.zipWith_nil_left, List.flatten_nil]

@[simp] theorem spread_cons (part gap : Octets) (parts gaps : List Octets) :
    spread (part :: parts) (gap :: gaps) = part ++ gap ++ spread parts gaps := by
  rw [spread, List.zipWith_cons_cons, List.flatten_cons, spread]

/-- What is left when each part has been taken at its leftmost place behind the one before. -/
def afterAll? (value : Octets) : List Octets → Option Octets
  | [] => some value
  | part :: parts => (afterFirst? part value).bind fun rest => afterAll? rest parts

/-- Parts and an end can be placed in a value exactly if the search from the left finds the parts
and leaves something with that end. -/
theorem exists_placement_iff (value final : Octets) (parts : List Octets) :
    (∃ gap gaps, gaps.length = parts.length ∧ value = gap ++ spread parts gaps ++ final) ↔
      ∃ rest, afterAll? value parts = some rest ∧ final <:+ rest := by
  induction parts generalizing value with
  | nil =>
      constructor
      · rintro ⟨gap, gaps, -, rfl⟩
        exact ⟨_, rfl, gap, by rw [spread_nil, List.append_nil]⟩
      · rintro ⟨rest, hrest, gap, rfl⟩
        refine ⟨gap, [], rfl, ?_⟩
        rw [spread_nil, List.append_nil]
        exact Option.some.inj hrest
  | cons part parts ih =>
      constructor
      · rintro ⟨gap, _ | ⟨next, gaps⟩, hlength, hvalue⟩
        · cases hlength
        have hfirst : value = gap ++ part ++ (next ++ spread parts gaps ++ final) := by
          rw [hvalue, spread_cons]
          simp only [List.append_assoc]
        obtain ⟨skipped, hfound⟩ := afterFirst?_of_eq hfirst
        obtain ⟨rest, hrest, hfinal⟩ := (ih (skipped ++ (next ++ spread parts gaps ++ final))).mp
          ⟨skipped ++ next, gaps, Nat.succ.inj hlength, by simp only [List.append_assoc]⟩
        refine ⟨rest, ?_, hfinal⟩
        rw [afterAll?, hfound, Option.bind_some, hrest]
      · rintro ⟨rest, hall, hfinal⟩
        obtain ⟨left, hleft, hrest⟩ := Option.bind_eq_some_iff.mp hall
        obtain ⟨gap, rfl⟩ := eq_of_afterFirst? hleft
        obtain ⟨next, gaps, hlength, rfl⟩ := (ih left).mpr ⟨rest, hrest, hfinal⟩
        refine ⟨gap, next :: gaps, congrArg Nat.succ hlength, ?_⟩
        rw [spread_cons]
        simp only [List.append_assoc]

namespace Rule

/-! ## Matching by normal forms -/

variable (rule : Rule)

/-- The normal form of a part that may be missing; then it is empty. -/
def normalizePart? (place : Place) : Option Octets → Except Failure Octets
  | none => .ok []
  | some part => rule.normalizePart place part

variable {rule}

/-- Behind the beginning of a value comes what follows the normal form of the first part, if the
value begins with that. -/
theorem afterInitial_eq {value initial : Octets} {part : Option Octets}
    (h : rule.normalizePart? .initial part = .ok initial) :
    rule.afterInitial value part =
      .ok (if initial.isPrefixOf value then some (value.drop initial.length) else none) := by
  cases part with
  | none =>
      obtain rfl := Except.ok.inj h
      rfl
  | some part =>
      rw [normalizePart?] at h
      rw [afterInitial, h, ok_bind, pure_eq_ok]

/-- Behind the parts in between comes what follows their normal forms, one searched for behind the
other. -/
theorem afterAny_eq {value : Octets} {parts fragments : List Octets}
    (h : parts.mapM (rule.normalizePart .any) = .ok fragments) :
    rule.afterAny value parts = .ok (afterAll? value fragments) := by
  induction parts generalizing value fragments with
  | nil =>
      obtain rfl := Except.ok.inj h
      rfl
  | cons part parts ih =>
      rw [List.mapM_cons] at h
      obtain ⟨fragment, hfragment, h⟩ := bind_eq_ok_iff.mp h
      obtain ⟨fragments, hfragments, h⟩ := bind_eq_ok_iff.mp h
      obtain rfl := Except.ok.inj h
      rw [afterAny, hfragment, ok_bind, afterAll?]
      cases fragment with
      | nil => rw [List.isEmpty_nil, if_pos rfl, ih hfragments, afterFirst?_nil, Option.bind_some]
      | cons b fragment =>
          rw [List.isEmpty_cons, if_neg Bool.false_ne_true]
          cases afterFirst? (b :: fragment) value with
          | none => rfl
          | some rest => exact ih hfragments

/-- A value ends with a part if it ends with the normal form of that part. -/
theorem endsWith_eq {value final : Octets} {part : Option Octets}
    (h : rule.normalizePart? .final part = .ok final) :
    rule.endsWith value part = .ok (final.isSuffixOf value) := by
  cases part with
  | none =>
      obtain rfl := Except.ok.inj h
      exact congrArg Except.ok (List.isSuffixOf_iff_suffix.mpr List.nil_suffix).symm
  | some part =>
      rw [normalizePart?] at h
      rw [endsWith, h, ok_bind, pure_eq_ok]

/-- A value matches a pattern exactly if the normal forms of the pattern's parts can be placed in
its own. -/
theorem matchesPattern_eq_ok {value v i f : Octets} {pattern : SubstringPattern}
    {parts : List Octets} (hv : rule.normalize value = .ok v)
    (hi : rule.normalizePart? .initial pattern.initial = .ok i)
    (hparts : pattern.any.mapM (rule.normalizePart .any) = .ok parts)
    (hf : rule.normalizePart? .final pattern.final = .ok f) :
    ∃ found, rule.matchesPattern value pattern = .ok found ∧ (found = true ↔
      ∃ gap gaps, gaps.length = parts.length ∧ v = i ++ gap ++ spread parts gaps ++ f) := by
  have hplace (rest : Octets) : v = i ++ rest → ((∃ gap gaps, gaps.length = parts.length ∧
      v = i ++ gap ++ spread parts gaps ++ f) ↔ ∃ left, afterAll? rest parts = some left ∧
        f <:+ left) := by
    rintro rfl
    rw [← exists_placement_iff]
    simp only [List.append_assoc, List.append_cancel_left_eq]
  rw [matchesPattern, hv, ok_bind, afterInitial_eq hi, ok_bind]
  by_cases hprefix : i.isPrefixOf v
  · obtain ⟨rest, rfl⟩ := List.isPrefixOf_iff_prefix.mp hprefix
    rw [hplace rest rfl, if_pos hprefix, List.drop_left]
    simp only [afterAny_eq hparts, ok_bind]
    cases hleft : afterAll? rest parts with
    | none => exact ⟨false, rfl, by simp⟩
    | some left =>
        refine ⟨f.isSuffixOf left, endsWith_eq hf, ?_⟩
        rw [List.isSuffixOf_iff_suffix]
        simp only [Option.some.injEq, exists_eq_left']
  · rw [if_neg hprefix]
    refine ⟨false, rfl, ?_⟩
    simp only [Bool.false_eq_true, false_iff]
    rintro ⟨gap, gaps, -, rfl⟩
    refine hprefix (List.isPrefixOf_iff_prefix.mpr ?_)
    simp only [List.append_assoc]
    exact List.prefix_append _ _

end Rule

/-! ## Searching by places -/

namespace Checked

/-- The leftmost place of a fragment in a value, from the given place on. There is no answer where
a slice of the value is out of bounds. -/
def findFrom (value fragment : Octets) (place : Nat) : Option (Option Nat) :=
  if place + fragment.length ≤ value.length then
    (slice? value place (place + fragment.length)).bind fun here =>
      if here = fragment then some (some place) else findFrom value fragment (place + 1)
  else some none
termination_by value.length + 1 - place

variable (rule : Rule) (value : Octets)

/-- The place behind the part that a normal form has to begin with, if it does. -/
def afterInitial : Option Octets → Except Failure (Option Nat)
  | none => .ok (some 0)
  | some part => do
    let part ← rule.normalizePart .initial part
    return if part.isPrefixOf value then some part.length else none

/-- The place behind the parts that have to come in a normal form, if they do. -/
def afterAny (place : Nat) : List Octets → Option (Except Failure (Option Nat))
  | [] => some (.ok (some place))
  | part :: parts =>
    match rule.normalizePart .any part with
    | .error failure => some (.error failure)
    | .ok part =>
      if part.isEmpty then afterAny place parts
      else
        (findFrom value part place).bind fun
          | some start => afterAny (start + part.length) parts
          | none => some (.ok none)

/-- Whether a normal form ends, behind the given place, as it has to. -/
def endsWith (place : Nat) : Option Octets → Option (Except Failure Bool)
  | none => some (.ok true)
  | some part =>
    match rule.normalizePart .final part with
    | .error failure => some (.error failure)
    | .ok part =>
      match sub? value.length part.length with
      | none => some (.ok false)
      | some start =>
        if start < place then some (.ok false)
        else (slice? value start value.length).map fun last => .ok (last == part)

/-- Whether a value matches a pattern under a rule. -/
def matchesPattern (pattern : SubstringPattern) : Option (Except Failure Bool) :=
  match rule.normalize value with
  | .error failure => some (.error failure)
  | .ok value =>
    match afterInitial rule value pattern.initial with
    | .error failure => some (.error failure)
    | .ok none => some (.ok false)
    | .ok (some place) =>
      (afterAny rule value place pattern.any).bind fun
        | .error failure => some (.error failure)
        | .ok none => some (.ok false)
        | .ok (some place) => endsWith rule value place pattern.final

variable {rule value}

/-- A fragment is found at the place behind which the search from the left goes on. -/
theorem findFrom_spec (fragment : Octets) (place : Nat) (hplace : place ≤ value.length) :
    ∃ found, findFrom value fragment place = some found ∧
      afterFirst? fragment (value.drop place) =
        found.map (fun start => value.drop (start + fragment.length)) ∧
      ∀ start, found = some start → start + fragment.length ≤ value.length := by
  fun_induction findFrom value fragment place with
  | case1 place hstop ih =>
      have hslice : slice? value place (place + fragment.length) =
          some ((value.drop place).take fragment.length) := by
        rw [slice?_eq (Nat.le_add_right _ _) hstop, List.drop_take, Nat.add_sub_cancel_left]
      rw [hslice, Option.bind_some]
      by_cases hhere : (value.drop place).take fragment.length = fragment
      · have hsplit : value.drop place = fragment ++ value.drop (place + fragment.length) := by
          have hboth := List.take_append_drop fragment.length (value.drop place)
          rw [hhere, List.drop_drop] at hboth
          exact hboth.symm
        refine ⟨some place, if_pos hhere, ?_, ?_⟩
        · rw [hsplit, afterFirst?_append, Option.map_some]
        · rintro start ⟨⟩
          exact hstop
      · have hprefix : ¬ fragment <+: value.drop place := by
          rw [List.prefix_iff_eq_take]
          exact fun h => hhere h.symm
        have hlt : place < value.length := by
          refine Nat.lt_of_le_of_ne hplace fun h => hprefix ?_
          rw [List.eq_nil_of_length_eq_zero (show fragment.length = 0 by omega)]
          exact List.nil_prefix
        rw [if_neg hhere]
        rw [List.drop_eq_getElem_cons hlt] at hprefix ⊢
        rw [afterFirst?_cons hprefix]
        exact ih hlt
  | case2 place hstop =>
      refine ⟨none, rfl, ?_, nofun⟩
      rw [afterFirst?_of_length_lt (by rw [List.length_drop]; omega), Option.map_none]

/-- The search by places finds the parts where the search in what is left does. -/
theorem afterAny_spec (rule : Rule) (parts : List Octets) (place : Nat)
    (hplace : place ≤ value.length) :
    ∃ answer, afterAny rule value place parts = some answer ∧
      rule.afterAny (value.drop place) parts = answer.map (Option.map (value.drop ·)) ∧
      ∀ place, answer = .ok (some place) → place ≤ value.length := by
  induction parts generalizing place with
  | nil =>
      refine ⟨.ok (some place), rfl, rfl, ?_⟩
      rintro place ⟨⟩
      exact hplace
  | cons part parts ih =>
      rw [afterAny, Rule.afterAny]
      cases rule.normalizePart .any part with
      | error failure => exact ⟨.error failure, rfl, rfl, nofun⟩
      | ok part =>
          simp only [ok_bind]
          by_cases hempty : part.isEmpty = true
          · rw [if_pos hempty, if_pos hempty]
            exact ih place hplace
          · rw [if_neg hempty, if_neg hempty]
            obtain ⟨found, hfind, hafter, hbound⟩ := findFrom_spec part place hplace
            rw [hfind, hafter, Option.bind_some]
            cases found with
            | none => exact ⟨.ok none, rfl, rfl, nofun⟩
            | some start => exact ih (start + part.length) (hbound start rfl)

/-- What is left ends as it has to where the last octets of the value stand behind the place. -/
theorem endsWith_eq (part : Option Octets) {place : Nat} (hplace : place ≤ value.length) :
    endsWith rule value place part = some (rule.endsWith (value.drop place) part) := by
  cases part with
  | none => rfl
  | some part =>
      rw [endsWith, Rule.endsWith]
      cases rule.normalizePart .final part with
      | error failure => rfl
      | ok part =>
          simp only [ok_bind, pure_eq_ok]
          have hlength : (value.drop place).length = value.length - place := List.length_drop
          have hsuffix (h : part.isSuffixOf (value.drop place) = true) :
              part.length + place ≤ value.length := by
            have hle := (List.isSuffixOf_iff_suffix.mp h).length_le
            omega
          by_cases hfits : part.length ≤ value.length
          · simp only [sub?_eq hfits]
            by_cases hbehind : value.length - part.length < place
            · have hnot : part.isSuffixOf (value.drop place) = false :=
                Bool.eq_false_iff.mpr fun h => absurd (hsuffix h) (by omega)
              rw [if_pos hbehind, hnot]
            · have hslice : slice? value (value.length - part.length) value.length =
                  some (value.drop (value.length - part.length)) := by
                rw [slice?_eq (Nat.sub_le _ _) (Nat.le_refl _), List.take_length]
              have hlast : (value.drop (value.length - part.length) == part) =
                  part.isSuffixOf (value.drop place) := by
                rw [Bool.eq_iff_iff, beq_iff_eq, List.isSuffixOf_iff_suffix,
                  List.suffix_iff_eq_drop, hlength, List.drop_drop, eq_comm]
                rw [show place + (value.length - place - part.length) =
                  value.length - part.length by omega]
              rw [if_neg hbehind, hslice, Option.map_some, hlast]
          · have hnot : part.isSuffixOf (value.drop place) = false :=
              Bool.eq_false_iff.mpr fun h => absurd (hsuffix h) (by omega)
            have hsub : sub? value.length part.length = none := if_neg hfits
            simp only [hsub, hnot]

/-- The place behind the first part is where what is left begins. -/
theorem afterInitial_spec (rule : Rule) (value : Octets) (part : Option Octets) :
    rule.afterInitial value part =
        (afterInitial rule value part).map (Option.map (value.drop ·)) ∧
      ∀ place, afterInitial rule value part = .ok (some place) → place ≤ value.length := by
  cases part with
  | none =>
      refine ⟨rfl, ?_⟩
      rintro place ⟨⟩
      exact Nat.zero_le _
  | some part =>
      rw [afterInitial, Rule.afterInitial]
      cases rule.normalizePart .initial part with
      | error failure =>
          refine ⟨rfl, ?_⟩
          rintro place ⟨⟩
      | ok part =>
          simp only [ok_bind, pure_eq_ok]
          by_cases hprefix : part.isPrefixOf value = true
          · rw [if_pos hprefix, if_pos hprefix]
            refine ⟨rfl, ?_⟩
            rintro place ⟨⟩
            exact (List.isPrefixOf_iff_prefix.mp hprefix).length_le
          · rw [if_neg hprefix, if_neg hprefix]
            refine ⟨rfl, ?_⟩
            rintro place ⟨⟩

/-- The search by places has an answer for every value and pattern, and it is that of the search
in what is left. -/
theorem matchesPattern_eq (rule : Rule) (value : Octets) (pattern : SubstringPattern) :
    matchesPattern rule value pattern = some (rule.matchesPattern value pattern) := by
  rw [matchesPattern, Rule.matchesPattern]
  cases rule.normalize value with
  | error failure => rfl
  | ok value =>
      simp only [ok_bind]
      obtain ⟨hinitial, hbound⟩ := afterInitial_spec rule value pattern.initial
      rw [hinitial]
      rcases hfirst : afterInitial rule value pattern.initial with failure | _ | place
      · rfl
      · rfl
      obtain ⟨answer, hchecked, hany, hplaces⟩ :=
        afterAny_spec rule pattern.any place (hbound place hfirst)
      simp only [hchecked, Except.map, Option.map_some, ok_bind, hany, Option.bind_some]
      rcases answer with failure | _ | last
      · rfl
      · rfl
      · exact endsWith_eq pattern.final (hplaces last rfl)

end Checked

namespace Rule

/-- **Substring matching is complete.** No slice that the search takes is out of bounds. Where the
normal forms of a value and of a pattern's parts exist, the value matches exactly if it is the
first part, the parts in between and the last part, in order and with gaps between them;
otherwise it is found not to match. -/
theorem matchesPattern_iff_placement (rule : Rule) (value : Octets) (pattern : SubstringPattern) :
    Checked.matchesPattern rule value pattern = some (rule.matchesPattern value pattern) ∧
      ∀ v i f parts, rule.normalize value = .ok v →
        rule.normalizePart? .initial pattern.initial = .ok i →
        pattern.any.mapM (rule.normalizePart .any) = .ok parts →
        rule.normalizePart? .final pattern.final = .ok f →
        (rule.matchesPattern value pattern = .ok true ↔
          ∃ gap gaps, gaps.length = parts.length ∧ v = i ++ gap ++ spread parts gaps ++ f) ∧
        ((¬ ∃ gap gaps, gaps.length = parts.length ∧ v = i ++ gap ++ spread parts gaps ++ f) →
          rule.matchesPattern value pattern = .ok false) := by
  refine ⟨Checked.matchesPattern_eq rule value pattern, ?_⟩
  intro v i f parts hv hi hparts hf
  obtain ⟨found, hmatches, hfound⟩ := matchesPattern_eq_ok hv hi hparts hf
  rw [hmatches, ← hfound, Except.ok.injEq, Except.ok.injEq]
  exact ⟨Iff.rfl, Bool.eq_false_iff.mpr⟩

/-- The first of two parts may stand at the second of its places as well. -/
theorem matchesPattern_iff_placement_secondPlace :
    numericString.normalize [0x31, 0x32, 0x20, 0x32, 0x33, 0x32, 0x32, 0x34] =
        .ok [0x31, 0x32, 0x32, 0x33, 0x32, 0x32, 0x34] ∧
      [[0x32], [], [0x32, 0x20, 0x32]].mapM (numericString.normalizePart .any) =
        .ok [[0x32], [], [0x32, 0x32]] ∧
      numericString.matchesPattern [0x31, 0x32, 0x20, 0x32, 0x33, 0x32, 0x32, 0x34]
        ⟨none, [[0x32], [], [0x32, 0x20, 0x32]], some [0x34, 0x20]⟩ = .ok true := by
  have hv : numericString.normalize [0x31, 0x32, 0x20, 0x32, 0x33, 0x32, 0x32, 0x34] =
      .ok [0x31, 0x32, 0x32, 0x33, 0x32, 0x32, 0x34] := rfl
  have hparts : [[0x32], [], [0x32, 0x20, 0x32]].mapM (numericString.normalizePart .any) =
      .ok [[0x32], [], [0x32, 0x32]] := rfl
  have hiff := (matchesPattern_iff_placement numericString _
    ⟨none, [[0x32], [], [0x32, 0x20, 0x32]], some [0x34, 0x20]⟩).2 _ [] [0x34] _ hv rfl hparts rfl
  exact ⟨hv, hparts, hiff.1.mpr ⟨[0x31, 0x32], [[0x33], [], []], rfl, rfl⟩⟩

end Rule

end DirectoryAccess.Matching
