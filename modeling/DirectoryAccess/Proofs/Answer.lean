import Mathlib.Data.List.Forall2
import DirectoryAccess.Failure

/-!
# Answers that may be failures

How a reading that is put together from several readings answers: it succeeds
exactly where each part does (`bind_eq_ok_iff`), and a list is read exactly where
each of its members is (`mapM_eq_ok_iff`, `mapM_map_eq_ok`). Where a state is kept
beside the answer, the next part starts in the state that the last one left
(`bind_apply_of_ok`).
-/

namespace DirectoryAccess

variable {α β : Type}

@[simp] theorem ok_bind (a : α) (f : α → Except Failure β) : (Except.ok a >>= f) = f a := rfl

@[simp] theorem error_bind (failure : Failure) (f : α → Except Failure β) :
    ((Except.error failure : Except Failure α) >>= f) = .error failure := rfl

@[simp] theorem pure_eq_ok (a : α) : (pure a : Except Failure α) = .ok a := rfl

@[simp] theorem throw_eq_error (failure : Failure) :
    (throw failure : Except Failure α) = .error failure := rfl

/-- A reading that goes on from another one succeeds where both do. -/
theorem bind_eq_ok_iff {r : Except Failure α} {f : α → Except Failure β} {b : β} :
    (r >>= f) = .ok b ↔ ∃ a, r = .ok a ∧ f a = .ok b := by
  cases r with
  | ok a => simp only [ok_bind, Except.ok.injEq, exists_eq_left']
  | error failure => simp only [error_bind, reduceCtorEq, false_and, exists_false]

/-- A failure that is explained on the way makes no difference to where both succeed. -/
theorem explain_bind_eq_ok_iff {message : String} {r : Except Failure α}
    {f : α → Except Failure β} {b : β} :
    (explain message r >>= f) = .ok b ↔ ∃ a, r = .ok a ∧ f a = .ok b := by
  simp only [bind_eq_ok_iff, explain_eq_ok_iff]

/-- A reading that succeeds does so with one value only, and under no condition. -/
theorem eq_ok_iff_of_eq_ok {r : Except Failure α} {a b : α} (h : r = .ok a) :
    r = .ok b ↔ b = a ∧ True := by
  rw [h, Except.ok.injEq, and_true, eq_comm]

/-- Where a reading succeeds with one value only, and under one condition, so does what is made
of it. -/
theorem bind_pure_eq_ok_iff {r : Except Failure α} {f : α → β} {a : α} {p : Prop}
    (h : ∀ x, r = .ok x ↔ x = a ∧ p) (b : β) :
    (r >>= fun x => pure (f x)) = .ok b ↔ b = f a ∧ p := by
  simp only [bind_eq_ok_iff, h, pure_eq_ok, Except.ok.injEq]
  constructor
  · rintro ⟨x, ⟨rfl, hp⟩, rfl⟩
    exact ⟨rfl, hp⟩
  · rintro ⟨rfl, hp⟩
    exact ⟨a, ⟨rfl, hp⟩, rfl⟩

/-- A list is read where each of its members is, as the list of what these are read as. -/
theorem mapM_eq_ok_iff {f : α → Except Failure β} {xs : List α} {ys : List β} :
    xs.mapM f = .ok ys ↔ List.Forall₂ (fun x y => f x = .ok y) xs ys := by
  induction xs generalizing ys with
  | nil =>
      simp only [List.mapM_nil, pure_eq_ok, Except.ok.injEq, List.forall₂_nil_left_iff, eq_comm]
  | cons x xs ih =>
      rw [List.mapM_cons, bind_eq_ok_iff]
      constructor
      · rintro ⟨y, hy, hrest⟩
        obtain ⟨ys, hys, h⟩ := bind_eq_ok_iff.mp hrest
        obtain rfl := Except.ok.inj h
        exact .cons hy (ih.mp hys)
      · rintro (_ | ⟨hy, hys⟩)
        exact ⟨_, hy, bind_eq_ok_iff.mpr ⟨_, ih.mpr hys, rfl⟩⟩

/-- What a list is read as has only members that are read from members of the list. -/
theorem exists_of_mem_of_mapM {f : α → Except Failure β} {xs : List α} {ys : List β}
    (h : xs.mapM f = .ok ys) {y : β} (hy : y ∈ ys) : ∃ x ∈ xs, f x = .ok y := by
  have hall := mapM_eq_ok_iff.mp h
  induction hall with
  | nil => exact absurd hy List.not_mem_nil
  | cons hx hxs ih =>
      rcases List.mem_cons.mp hy with rfl | hy
      · exact ⟨_, List.mem_cons_self .., hx⟩
      · obtain ⟨x, hmem, hread⟩ := ih (mapM_eq_ok_iff.mpr hxs) hy
        exact ⟨x, List.mem_cons_of_mem _ hmem, hread⟩

/-- The members of a list are read back where each of them is. -/
theorem mapM_map_eq_ok {f : β → Except Failure α} {g : α → β} {xs : List α}
    (h : ∀ x ∈ xs, f (g x) = .ok x) : (xs.map g).mapM f = .ok xs := by
  induction xs with
  | nil => rfl
  | cons x xs ih =>
      rw [List.map_cons, List.mapM_cons, h x (List.mem_cons_self ..),
        ih fun y hy => h y (List.mem_cons_of_mem _ hy)]
      rfl

/-! ## Answers beside a state -/

section State

variable {σ : Type} {step : ExceptT Failure (StateM σ) α} {s t : σ} {a : α} {failure : Failure}

/-- A step that goes on from a success starts in the state that was left. -/
theorem bind_apply_of_ok (h : step s = (.ok a, t)) (f : α → ExceptT Failure (StateM σ) β) :
    (step >>= f) s = f a t := by
  change (ExceptT.bind step f) s = f a t
  simp only [ExceptT.bind, ExceptT.mk, bind, StateT.bind, h, ExceptT.bindCont]

/-- Nothing goes on from a failure. -/
theorem bind_apply_of_error (h : step s = (.error failure, t))
    (f : α → ExceptT Failure (StateM σ) β) : (step >>= f) s = (.error failure, t) := by
  change (ExceptT.bind step f) s = (.error failure, t)
  simp only [ExceptT.bind, ExceptT.mk, bind, StateT.bind, h, ExceptT.bindCont]
  rfl

/-- What is made of the answer changes neither a failure nor the state that is left. -/
theorem map_apply (step : ExceptT Failure (StateM σ) α) (f : α → β) (s : σ) :
    (f <$> step) s = ((step s).1.map f, (step s).2) := by
  change (ExceptT.map f step) s = _
  simp only [ExceptT.map, ExceptT.mk, bind, StateT.bind]
  rcases step s with ⟨answer, t⟩
  cases answer <;> rfl

end State

end DirectoryAccess
