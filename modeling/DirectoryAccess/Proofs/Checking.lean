import DirectoryAccess.Proofs.Answer

/-!
# Answers whose bounds are checked

A decoder takes slices and looks at the parts of a list by their places. `Checking`
is the answer of a decoder that checks each of these: it has no outcome at all where
one of them is out of bounds, and otherwise it is an answer or a failure. That such
an answer is `ofExcept` of a plain one says that nothing was out of bounds; it is
shown of what an answer is put together from, one lemma for each way to do so.
-/

namespace DirectoryAccess

/-- An answer or a failure, and no outcome at all where a bound does not hold. -/
abbrev Checking (α : Type) := ExceptT Failure Option α

namespace Checking

variable {α β σ : Type}

/-- An answer for which no bound has to hold. -/
def ofExcept (answer : Except Failure α) : Checking α := some answer

/-- A failure. -/
def fail (failure : Failure) : Checking α := ofExcept (.error failure)

/-- The part of a list at a place. -/
def part (parts : List α) (place : Nat) : Checking α :=
  Option.map Except.ok parts[place]?

/-- What the part of a list at a place is seen as. -/
def view (look : α → Except Failure β) (parts : List α) (place : Nat) : Checking β :=
  part parts place >>= fun a => ofExcept (look a)

/-- The parts of a list from a place on. -/
def behind (parts : List α) (place : Nat) : Checking (List α) :=
  if place ≤ parts.length then ofExcept (.ok (parts.drop place)) else none

/-- Makes a failure the cause of a decoding failure that says what could not be decoded. -/
def explain (message : String) (checked : Checking α) : Checking α :=
  Option.map (DirectoryAccess.explain message) checked

/-! ## Bounds that hold -/

@[simp] theorem ofExcept_ok_bind (a : α) (next : α → Checking β) :
    (ofExcept (.ok a) >>= next) = next a := rfl

/-- The first of the parts behind a place is at that place. -/
theorem part_eq {parts behind : List α} {place : Nat} {a : α}
    (h : parts.drop place = a :: behind) : part parts place = ofExcept (.ok a) := by
  have hplace : parts[place]? = some a := by
    rw [← List.head?_drop, h, List.head?_cons]
  rw [part, hplace]
  rfl

/-- What stands behind a place among some parts is given without a look beyond them. -/
theorem behind_eq {parts : List α} {place : Nat} (h : place ≤ parts.length) :
    behind parts place = ofExcept (.ok (parts.drop place)) := if_pos h

/-! ## Answers put together -/

/-- An answer that goes on from another one stays in bounds where both do. -/
theorem bind_eq {checked : Checking α} {answer : Except Failure α} {next : α → Checking β}
    {plain : α → Except Failure β} (hfirst : checked = ofExcept answer)
    (hnext : ∀ a, answer = .ok a → next a = ofExcept (plain a)) :
    (checked >>= next) = ofExcept (answer >>= plain) := by
  subst hfirst
  cases answer with
  | ok a => exact hnext a rfl
  | error failure => rfl

/-- An explanation changes nothing about the bounds. -/
theorem explain_eq {checked : Checking α} {answer : Except Failure α} (message : String)
    (h : checked = ofExcept answer) :
    explain message checked = ofExcept (DirectoryAccess.explain message answer) := by
  rw [h]
  rfl

/-- The members of a list are read in bounds where each of them is. -/
theorem mapM_eq {checked : α → Checking β} {plain : α → Except Failure β}
    (h : ∀ a, checked a = ofExcept (plain a)) (xs : List α) :
    xs.mapM checked = ofExcept (xs.mapM plain) := by
  induction xs with
  | nil => rfl
  | cons x xs ih =>
      rw [List.mapM_cons, List.mapM_cons]
      exact bind_eq (h x) fun y _ => bind_eq ih fun ys _ => rfl

/-- The members of a list are taken in one after the other in bounds where each of them is. -/
theorem foldlM_eq {checked : σ → α → Checking σ} {plain : σ → α → Except Failure σ}
    (h : ∀ s a, checked s a = ofExcept (plain s a)) (xs : List α) (s : σ) :
    xs.foldlM checked s = ofExcept (xs.foldlM plain s) := by
  induction xs generalizing s with
  | nil => rfl
  | cons x xs ih =>
      rw [List.foldlM_cons, List.foldlM_cons]
      exact bind_eq (h s x) fun t _ => ih t

end Checking

end DirectoryAccess
