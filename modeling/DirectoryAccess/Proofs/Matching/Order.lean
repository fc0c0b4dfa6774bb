import DirectoryAccess.Matching.Rule
import DirectoryAccess.Proofs.Answer

/-!
# Equality and order under a rule

Two values of a rule are compared by the first octets in which their normal forms
differ, and by the lengths of these if there are none. This is the lexicographic
order of octet strings (`compareOctets_eq_compare`), so what holds of that order
holds of the values that a rule accepts, whatever the rule makes of them
(`Rule.coherent`).
-/

namespace DirectoryAccess.Matching

/-! ## The order of octet strings -/

/-- The first difference decides as the lexicographic order does, and where there is none, the
lengths. -/
theorem compareOctets_eq_compare (a b : Octets) : compareOctets a b = compare a b := by
  induction a generalizing b with
  | nil =>
      cases b with
      | nil => rfl
      | cons y b => exact Nat.compare_eq_lt.mpr (Nat.succ_pos _)
  | cons x a ih =>
      cases b with
      | nil => exact Nat.compare_eq_gt.mpr (Nat.succ_pos _)
      | cons y b =>
          rw [List.compare_cons_cons, ← ih]
          cases h : compare x y with
          | lt => simp only [compareOctets, List.zipWith_cons_cons, List.find?_cons, h]; rfl
          | gt => simp only [compareOctets, List.zipWith_cons_cons, List.find?_cons, h]; rfl
          | eq =>
              have hlength : compare (a.length + 1) (b.length + 1) =
                  compare a.length b.length := by
                simp only [Nat.compare_eq_ite_lt, Nat.add_lt_add_iff_right]
              simp only [compareOctets, List.zipWith_cons_cons, List.find?_cons, h,
                List.length_cons, hlength]
              rfl

/-- Whether an octet string comes before another one: it is a proper beginning of the other, or
has the lower number where the two first differ. -/
def Precedes (a b : Octets) : Prop :=
  (∃ y rest, b = a ++ y :: rest) ∨
    ∃ common x y as bs, a = common ++ x :: as ∧ b = common ++ y :: bs ∧ x.toNat < y.toNat

theorem precedes_nil_cons (y : UInt8) (b : Octets) : Precedes [] (y :: b) := .inl ⟨y, b, rfl⟩

theorem not_precedes_nil (a : Octets) : ¬ Precedes a [] := by
  rintro (⟨y, rest, h⟩ | ⟨common, x, y, as, bs, -, h, -⟩) <;>
    exact absurd h.symm (List.append_ne_nil_of_right_ne_nil _ (List.cons_ne_nil _ _))

theorem precedes_cons_cons {x y : UInt8} {a b : Octets} :
    Precedes (x :: a) (y :: b) ↔ x.toNat < y.toNat ∨ x = y ∧ Precedes a b := by
  constructor
  · rintro (⟨z, rest, h⟩ | ⟨common, p, q, as, bs, ha, hb, hlt⟩)
    · obtain ⟨rfl, rfl⟩ := List.cons.inj h
      exact .inr ⟨rfl, .inl ⟨z, rest, rfl⟩⟩
    cases common with
    | nil =>
        obtain ⟨rfl, rfl⟩ := List.cons.inj ha
        obtain ⟨rfl, rfl⟩ := List.cons.inj hb
        exact .inl hlt
    | cons c common =>
        obtain ⟨rfl, rfl⟩ := List.cons.inj ha
        obtain ⟨rfl, rfl⟩ := List.cons.inj hb
        exact .inr ⟨rfl, .inr ⟨common, p, q, as, bs, rfl, rfl, hlt⟩⟩
  · rintro (hlt | ⟨rfl, ⟨z, rest, rfl⟩ | ⟨common, p, q, as, bs, rfl, rfl, hlt⟩⟩)
    · exact .inr ⟨[], x, y, a, b, rfl, rfl, hlt⟩
    · exact .inl ⟨z, rest, rfl⟩
    · exact .inr ⟨x :: common, p, q, as, bs, rfl, rfl, hlt⟩

/-- Octets count as unsigned numbers, and a proper beginning comes first. -/
theorem compareOctets_eq_lt_iff {a b : Octets} : compareOctets a b = .lt ↔ Precedes a b := by
  rw [compareOctets_eq_compare]
  induction a generalizing b with
  | nil =>
      cases b with
      | nil => exact iff_of_false (by decide) (not_precedes_nil [])
      | cons y b => exact iff_of_true rfl (precedes_nil_cons y b)
  | cons x a ih =>
      cases b with
      | nil =>
          rw [List.compare_cons_nil]
          exact iff_of_false (by decide) (not_precedes_nil _)
      | cons y b =>
          rw [List.compare_cons_cons, Ordering.then_eq_lt, ih, precedes_cons_cons,
            Std.LawfulEqOrd.compare_eq_iff_eq, Std.compare_eq_lt, UInt8.lt_iff_toNat_lt]

namespace Rule

/-! ## Values that a rule accepts -/

/-- A value that has a normal form under a rule. -/
structure Accepted (rule : Rule) where
  /-- The value. -/
  value : Octets
  /-- Its normal form. -/
  normal : Octets
  /-- The rule makes the normal form of the value. -/
  normalize_eq : rule.normalize value = .ok normal

variable {rule : Rule}

/-- Accepted values match exactly if their normal forms are equal. -/
theorem valuesMatch_accepted (a b : rule.Accepted) :
    rule.valuesMatch a.value b.value = .ok (a.normal == b.normal) := by
  rw [valuesMatch, a.normalize_eq, b.normalize_eq]
  rfl

/-- Accepted values are told to match exactly if their normal forms are equal. -/
theorem valuesMatch_accepted_iff (a b : rule.Accepted) :
    rule.valuesMatch a.value b.value = .ok true ↔ a.normal = b.normal := by
  rw [valuesMatch_accepted, Except.ok.injEq, beq_iff_eq]

/-- Accepted values are ordered as their normal forms are. -/
theorem compareValues_accepted (a b : rule.Accepted) :
    rule.compareValues a.value b.value = .ok (compare a.normal b.normal) := by
  rw [compareValues, a.normalize_eq, b.normalize_eq, ← compareOctets_eq_compare]
  rfl

/-- What is made of two normal forms fails exactly if one of them does not exist. -/
theorem exists_error_iff {α : Type} (f : Octets → Octets → α) (a b : Octets) :
    (∃ failure, (do
        let x ← rule.normalize a
        let y ← rule.normalize b
        return f x y : Except Failure α) = .error failure) ↔
      (∃ failure, rule.normalize a = .error failure) ∨
        ∃ failure, rule.normalize b = .error failure := by
  cases rule.normalize a with
  | error failure => simp
  | ok x => cases rule.normalize b <;> simp

variable (rule)

/-- Equality and order under a rule fit together. -/
structure Coherent : Prop where
  /-- Matching divides the accepted values into classes. -/
  equivalence : Equivalence fun a b : rule.Accepted =>
    rule.valuesMatch a.value b.value = .ok true
  /-- Those of one class compare as equal, and no others do. -/
  compare_eq_iff : ∀ a b : rule.Accepted,
    rule.compareValues a.value b.value = .ok .eq ↔ rule.valuesMatch a.value b.value = .ok true
  /-- Values in the other order compare the other way round. -/
  compare_swap : ∀ a b : rule.Accepted,
    rule.compareValues b.value a.value =
      (rule.compareValues a.value b.value).map Ordering.swap
  /-- What does not come behind something that does not come behind a third does not come behind
  the third. -/
  compare_ne_gt : ∀ a b c : rule.Accepted,
    rule.compareValues a.value b.value ≠ .ok .gt → rule.compareValues b.value c.value ≠ .ok .gt →
      rule.compareValues a.value c.value ≠ .ok .gt
  /-- What comes before something that comes before a third comes before the third. -/
  compare_lt : ∀ a b c : rule.Accepted,
    rule.compareValues a.value b.value = .ok .lt → rule.compareValues b.value c.value = .ok .lt →
      rule.compareValues a.value c.value = .ok .lt
  /-- Values compare as their normal forms do in the lexicographic order. -/
  compare_eq : ∀ a b : rule.Accepted,
    rule.compareValues a.value b.value = .ok (compare a.normal b.normal)
  /-- In that order octets count as unsigned numbers, and a proper beginning comes first. -/
  compare_lt_iff : ∀ a b : rule.Accepted,
    rule.compareValues a.value b.value = .ok .lt ↔ Precedes a.normal b.normal
  /-- Whether two values match is told exactly if both are accepted. -/
  valuesMatch_fails_iff : ∀ a b,
    (∃ failure, rule.valuesMatch a b = .error failure) ↔
      (∃ failure, rule.normalize a = .error failure) ∨
        ∃ failure, rule.normalize b = .error failure
  /-- How two values compare is told exactly if both are accepted. -/
  compareValues_fails_iff : ∀ a b,
    (∃ failure, rule.compareValues a b = .error failure) ↔
      (∃ failure, rule.normalize a = .error failure) ∨
        ∃ failure, rule.normalize b = .error failure

/-- **Equality and order are coherent** under every rule: they are those of the normal forms. -/
theorem coherent : rule.Coherent where
  equivalence := by
    simp only [valuesMatch_accepted_iff]
    exact ⟨fun _ => rfl, Eq.symm, Eq.trans⟩
  compare_eq_iff a b := by
    rw [compareValues_accepted, valuesMatch_accepted_iff, Except.ok.injEq,
      Std.LawfulEqOrd.compare_eq_iff_eq]
  compare_swap a b := by
    rw [compareValues_accepted, compareValues_accepted, Std.OrientedOrd.eq_swap]
    rfl
  compare_ne_gt a b c := by
    simp only [compareValues_accepted, ne_eq, Except.ok.injEq, Ordering.ne_gt_iff_isLE]
    exact Std.TransCmp.isLE_trans
  compare_lt a b c := by
    simp only [compareValues_accepted, Except.ok.injEq]
    exact Std.TransCmp.lt_trans
  compare_eq := compareValues_accepted
  compare_lt_iff a b := by
    rw [compareValues_accepted, Except.ok.injEq, ← compareOctets_eq_compare,
      compareOctets_eq_lt_iff]
  valuesMatch_fails_iff := exists_error_iff fun x y => x == y
  compareValues_fails_iff := exists_error_iff compareOctets

end Rule

end DirectoryAccess.Matching
