import DirectoryAccess.Proofs.Ber.Reader

/-!
# Well-nested readers

A reader is well nested if its place does not lie behind the end of the innermost
open sequence, each sequence ends no later than the one around it, the outermost
one ends in the octets, and no more sequences are open than are allowed. What a
step can do to a reader is said once (`Reader.Moves`); each of these moves keeps a
reader well nested and none goes back.
-/

namespace DirectoryAccess.Ber

namespace Reader

/-- The ends that a reader may not pass, the innermost first and that of the octets last. -/
def bounds (r : Reader) : List Nat := r.ends ++ [r.input.length]

/-- The place and the ends of a reader are in order, and not too many sequences are open. -/
structure WellNested (r : Reader) : Prop where
  /-- The place comes first, then the ends from the innermost to that of the octets. -/
  ordered : (r.position :: r.bounds).Pairwise (· ≤ ·)
  /-- The limit on open sequences is kept. -/
  depth_le : r.ends.length ≤ r.limits.depth

/-- A reader at the front of some octets is well nested. -/
theorem wellNested_ofOctets (input : Octets) (limits : Limits) :
    (ofOctets input limits).WellNested := by
  constructor
  · change [0, input.length].Pairwise (· ≤ ·)
    exact List.pairwise_pair.mpr (Nat.zero_le _)
  · exact Nat.zero_le _

/-- The first of the bounds is the end of the innermost sequence, or of the octets. -/
theorem bounds_eq_limit_cons (r : Reader) : ∃ outer, r.bounds = r.limit :: outer := by
  rw [bounds, limit]
  cases r.ends with
  | nil => exact ⟨[], rfl⟩
  | cons stop ends => exact ⟨ends ++ [r.input.length], rfl⟩

namespace WellNested

variable {r : Reader}

/-- A well-nested reader does not stand beyond its window. -/
theorem position_le_limit (h : r.WellNested) : r.position ≤ r.limit := by
  obtain ⟨outer, hb⟩ := r.bounds_eq_limit_cons
  have hordered := h.ordered
  rw [hb] at hordered
  exact List.rel_of_pairwise_cons hordered (List.mem_cons_self ..)

/-- No bound lies in front of the innermost one. -/
theorem limit_le (h : r.WellNested) {stop : Nat} (hs : stop ∈ r.bounds) : r.limit ≤ stop := by
  obtain ⟨outer, hb⟩ := r.bounds_eq_limit_cons
  have hordered := h.ordered
  rw [hb] at hordered hs
  rcases List.mem_cons.mp hs with rfl | hs
  · exact Nat.le_refl _
  · exact List.rel_of_pairwise_cons (List.Pairwise.of_cons hordered) hs

/-- The window of a well-nested reader ends within the input. -/
theorem limit_le_length (h : r.WellNested) : r.limit ≤ r.input.length :=
  h.limit_le (List.mem_append_right _ (List.mem_singleton_self _))

/-- The window of a well-nested reader reaches from where it stands to its end. -/
theorem length_window (h : r.WellNested) : r.window.length = r.limit - r.position := by
  rw [Reader.length_window, Nat.min_eq_left h.limit_le_length]

/-- What is in the window lies inside every open sequence. -/
theorem advance_le (h : r.WellNested) {n stop : Nat} (hn : n ≤ r.window.length)
    (hs : stop ∈ r.bounds) : r.position + n ≤ stop := by
  have hposition := h.position_le_limit
  have hlimit := h.limit_le hs
  rw [h.length_window] at hn
  omega

/-- A reader that goes on inside its window stays well nested. -/
theorem advance (h : r.WellNested) {n : Nat} (hn : n ≤ r.window.length) :
    (r.advance n).WellNested := by
  refine ⟨List.pairwise_cons.mpr ⟨?_, (List.pairwise_cons.mp h.ordered).2⟩, h.depth_le⟩
  intro stop hs
  exact h.advance_le hn hs

/-- A reader that opens a sequence inside its window stays well nested. -/
theorem enter (h : r.WellNested) {m n : Nat} (hn : m + n ≤ r.window.length)
    (hdepth : r.ends.length < r.limits.depth) :
    WellNested { r.advance m with ends := (r.position + m + n) :: r.ends } := by
  have hstop : ∀ stop ∈ r.bounds, r.position + m + n ≤ stop := by
    intro stop hs
    rw [Nat.add_assoc]
    exact h.advance_le hn hs
  refine ⟨List.pairwise_cons.mpr ⟨?_, List.pairwise_cons.mpr ⟨hstop, ?_⟩⟩, hdepth⟩
  · intro stop hs
    rcases List.mem_cons.mp hs with rfl | hs
    · exact Nat.le_add_right _ _
    · exact Nat.le_trans (Nat.le_add_right _ _) (hstop stop hs)
  · exact (List.pairwise_cons.mp h.ordered).2

/-- A reader that closes its innermost sequence stays well nested. -/
theorem leave (h : r.WellNested) : WellNested { r with ends := r.ends.tail } := by
  have hsub : (r.position :: (r.ends.tail ++ [r.input.length])).Sublist
      (r.position :: (r.ends ++ [r.input.length])) :=
    ((List.tail_sublist r.ends).append_right _).cons_cons _
  refine ⟨h.ordered.sublist hsub, ?_⟩
  exact Nat.le_trans (List.tail_sublist r.ends).length_le h.depth_le

end WellNested

/-! ## Moves -/

/-- What a step can do to a reader. -/
inductive Moves (r : Reader) : Reader → Prop
  /-- It stays. -/
  | stay : Moves r r
  /-- It goes on behind the next header, or behind the value that the header announces. -/
  | pass (head : Header) (n : Nat) (hd : Header.decode r.window = .ok head)
      (hn : n ≤ head.size) : Moves r (r.advance (head.width + n))
  /-- It opens the next element as a sequence. -/
  | enter (head : Header) (hd : Header.decode r.window = .ok head)
      (hdepth : r.ends.length < r.limits.depth) :
      Moves r { r.advance head.width with
        ends := (r.position + head.width + head.size) :: r.ends }
  /-- It closes the innermost sequence, at its end. -/
  | leave (hstop : r.ends.head? = some r.position) : Moves r { r with ends := r.ends.tail }

namespace Moves

variable {r r' : Reader}

/-- A move does not change the input. -/
theorem input_eq (h : Moves r r') : r'.input = r.input := by
  cases h <;> rfl

/-- A move does not change the limits. -/
theorem limits_eq (h : Moves r r') : r'.limits = r.limits := by
  cases h <;> rfl

/-- No move goes back. -/
theorem position_le (h : Moves r r') : r.position ≤ r'.position := by
  cases h with
  | stay => exact Nat.le_refl _
  | pass head n hd hn => exact Nat.le_add_right _ _
  | enter head hd hdepth => exact Nat.le_add_right _ _
  | leave hstop => exact Nat.le_refl _

/-- A well-nested reader stays well nested, whatever move it makes. -/
theorem wellNested (h : Moves r r') (hr : r.WellNested) : r'.WellNested := by
  cases h with
  | stay => exact hr
  | pass head n hd hn =>
      have hle := (Header.le_length_of_decode hd).2
      exact hr.advance (by omega)
  | enter head hd hdepth => exact hr.enter (Header.le_length_of_decode hd).2 hdepth
  | leave hstop => exact hr.leave

end Moves

end Reader

/-! ## The moves of steps -/

namespace Reading

open Reader

/-- To read an element is a move. -/
theorem element_moves (r : Reader) : Moves r (element r).2 := by
  rcases header_cases r with ⟨failure, hf⟩ | ⟨head, hd, hs⟩
  · rw [element_of_header_error hf]
    exact .stay
  · rw [element_of_decode hd hs]
    exact .pass head head.size hd (Nat.le_refl _)

/-- To read an element through a view is a move. -/
theorem elementAs_moves {α : Type} {view : Element → Except Failure α} (r : Reader) :
    Moves r (elementAs view r).2 := by
  rw [elementAs_snd]
  exact element_moves r

/-- To open a sequence is a move, also where it fails. -/
theorem openSequence_moves (r : Reader) : Moves r (openSequence r).2 := by
  obtain ⟨head, hd, hdepth, hopen⟩ | ⟨failure, hopen⟩ | ⟨failure, head, hd, hopen⟩ :=
    openSequence_cases r
  · rw [hopen]
    exact .enter head hd hdepth
  · rw [hopen]
    exact .stay
  · rw [hopen]
    exact .pass head 0 hd (Nat.zero_le _)

/-- To close a sequence is a move, also where it fails. -/
theorem closeSequence_moves (opened : Opened) (r : Reader) :
    Moves r (closeSequence opened r).2 := by
  rw [closeSequence]
  split
  · exact .stay
  · rename_i hstop
    split
    · exact .stay
    · rename_i hposition
      refine .leave ?_
      rw [Decidable.not_not.mp hstop, Decidable.not_not.mp hposition]

end Reading

end DirectoryAccess.Ber
