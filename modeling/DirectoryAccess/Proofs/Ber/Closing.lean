import Mathlib.Data.List.InsertIdx
import DirectoryAccess.Proofs.Ber.Run

/-!
# Which sequences can be closed

Sequences are to be closed in the reverse of the order in which they were opened. A reader
keeps of each open sequence only where it ends, and the sequence that is closed is told
from the others by its end alone. Along with a reader a `Session` keeps which sequences
have been opened and not closed; their ends are those that the reader has, whatever was
asked of it (`Session.run_tracked`). So a sequence can be closed if the reader stands at
its end and all that were opened after it end there too (`Session.run_closeSequence`). This
is the innermost one, unless sequences have an end in common: then any of these can be
closed, an outer one before an inner one (`Session.closesOuter_commonEnd`).
-/

namespace DirectoryAccess.Ber

/-- In a list in ascending order, what is equal to the first member stands behind members that are
all equal to it, so it makes no difference which of them is taken out. -/
theorem eraseIdx_eq_tail_of_pairwise {stops : List Nat} {place stop : Nat}
    (h : stops.Pairwise (· ≤ ·)) (hplace : stops[place]? = some stop)
    (hhead : stops.head? = some stop) :
    stops.eraseIdx place = stops.tail ∧ ∀ other ∈ stops.take place, other = stop := by
  induction place generalizing stops with
  | zero =>
      refine ⟨List.eraseIdx_zero .., ?_⟩
      rw [List.take_zero]
      exact nofun
  | succ place ih =>
      obtain ⟨rest, rfl⟩ := List.head?_eq_some_iff.mp hhead
      rw [List.getElem?_cons_succ] at hplace
      obtain ⟨hle, hrest⟩ := List.pairwise_cons.mp h
      obtain ⟨second, hsecond⟩ : ∃ second, rest.head? = some second := by
        cases rest with
        | nil => cases hplace
        | cons second rest => exact ⟨second, rfl⟩
      have hle' : stop ≤ second := hle second (List.mem_of_mem_head? hsecond)
      have hge : second ≤ stop := by
        obtain ⟨rest, rfl⟩ := List.head?_eq_some_iff.mp hsecond
        rcases List.mem_cons.mp (List.mem_of_getElem? hplace) with rfl | hmem
        · exact Nat.le_refl _
        · exact List.rel_of_pairwise_cons hrest hmem
      obtain rfl := Nat.le_antisymm hle' hge
      obtain ⟨herase, htake⟩ := ih hrest hplace hsecond
      constructor
      · obtain ⟨rest, rfl⟩ := List.head?_eq_some_iff.mp hsecond
        rw [List.eraseIdx_cons_succ, herase, List.tail_cons, List.tail_cons]
      · intro other hother
        rw [List.take_succ_cons] at hother
        rcases List.mem_cons.mp hother with rfl | hother
        · rfl
        · exact htake other hother

namespace Reading

/-- A sequence is closed if the reader stands at its end and the innermost sequence ends there;
that one is then not open any more. -/
theorem closeSequence_eq_ok_iff {opened : Opened} {r r' : Reader} :
    closeSequence opened r = (.ok (), r') ↔ r.position = opened.stop ∧
      r.ends.head? = some opened.stop ∧ r' = { r with ends := r.ends.tail } := by
  rw [closeSequence]
  split
  · rename_i hne
    constructor
    · intro h
      cases (Prod.mk.inj h).1
    · intro h
      exact absurd h.2.1 hne
  · rename_i heq
    split
    · rename_i hne
      constructor
      · intro h
        cases (Prod.mk.inj h).1
      · intro h
        exact absurd h.1 hne
    · rename_i hposition
      rw [Decidable.not_not] at heq hposition
      rw [Prod.mk.injEq, and_iff_right rfl, and_iff_right hposition, and_iff_right heq, eq_comm]

/-- Where a sequence is not closed, the reader stays. -/
theorem closeSequence_of_error {opened : Opened} {r r' : Reader} {failure : Failure}
    (h : closeSequence opened r = (.error failure, r')) : r' = r := by
  rw [closeSequence] at h
  split at h
  · exact (Prod.mk.inj h).2.symm
  · split at h
    · exact (Prod.mk.inj h).2.symm
    · cases (Prod.mk.inj h).1

/-- The sequence that is opened becomes the innermost one; where none is opened, the same ones are
open as before. -/
theorem openSequence_ends (r : Reader) :
    (∃ opened r', openSequence r = (.ok opened, r') ∧ r'.ends = opened.stop :: r.ends) ∨
      ∃ failure r', openSequence r = (.error failure, r') ∧ r'.ends = r.ends := by
  obtain ⟨head, -, -, hopen⟩ | ⟨failure, hopen⟩ | ⟨failure, head, -, hopen⟩ :=
    openSequence_cases r
  · exact .inl ⟨_, _, hopen, rfl⟩
  · exact .inr ⟨failure, r, hopen, rfl⟩
  · exact .inr ⟨failure, _, hopen, rfl⟩

end Reading

/-- Whether a call neither opens a sequence nor closes one. -/
def Call.isLook : Call → Bool
  | openSequence | closeSequence _ => false
  | _ => true

/-- The same sequences are open after a call that neither opens nor closes one. -/
theorem Call.step_ends_of_isLook {call : Call} (h : call.isLook = true) (r : Reader) :
    (call.step r).2.ends = r.ends := by
  cases hview : call.view? with
  | some view =>
      rw [step_of_view? hview, Reading.elementAs_snd]
      obtain ⟨n, -, hadvance⟩ := Reading.element_advances r
      rw [hadvance, Reader.advance_ends]
  | none =>
      cases call with
      | peek => rfl
      | hasMore opened => rfl
      | openSequence | closeSequence opened => cases h
      | element | octets | integer | int32 | text => cases hview

/-- What the holder of a reader can ask for. -/
inductive Ask
  /-- A call that neither opens nor closes a sequence. -/
  | look (call : Call) (h : call.isLook = true)
  /-- Opens the next element as a sequence. -/
  | openSequence
  /-- Closes a sequence that is not closed yet, after which that many others were opened that are
  not closed yet either. -/
  | closeSequence (place : Nat)

/-- A reader and the sequences that were opened and are not closed yet, the last one first. -/
structure Session where
  /-- The reader. -/
  reader : Reader
  /-- The sequences that were opened and not closed. -/
  unclosed : List Opened
  deriving DecidableEq, Repr

namespace Session

/-- A reader at the front of some octets, of which nothing has been asked yet. -/
def ofOctets (input : Octets) (limits : Limits) : Session := ⟨.ofOctets input limits, []⟩

/-- What becomes of the unclosed sequences when one was to be opened. -/
def noteOpened (s : Session) : Except Failure Opened × Reader → Session
  | (.ok opened, reader) => ⟨reader, opened :: s.unclosed⟩
  | (.error _, reader) => ⟨reader, s.unclosed⟩

/-- What becomes of the unclosed sequences when the one at a place was to be closed. -/
def noteClosed (s : Session) (place : Nat) : Except Failure Unit × Reader → Session
  | (.ok _, reader) => ⟨reader, s.unclosed.eraseIdx place⟩
  | (.error _, reader) => ⟨reader, s.unclosed⟩

/-- The session after one more thing is asked for. -/
def step (s : Session) : Ask → Session
  | .look call _ => ⟨(call.step s.reader).2, s.unclosed⟩
  | .openSequence => s.noteOpened (Reading.openSequence s.reader)
  | .closeSequence place =>
    match s.unclosed[place]? with
    | none => s
    | some opened => s.noteClosed place (Reading.closeSequence opened s.reader)

/-- The session after some things are asked for, one after the other. -/
def run (asks : List Ask) (s : Session) : Session := asks.foldl step s

/-- The ends that a reader keeps are those of the sequences that are not closed, in their order. -/
structure Tracked (s : Session) : Prop where
  /-- The reader is well nested. -/
  wellNested : s.reader.WellNested
  /-- The ends are those of the sequences. -/
  ends_eq : s.reader.ends = s.unclosed.map Opened.stop

variable {s : Session} {place : Nat} {opened : Opened}

/-- Sequences that were opened later end earlier, or at the same place. -/
theorem Tracked.ordered (h : s.Tracked) : (s.unclosed.map Opened.stop).Pairwise (· ≤ ·) := by
  rw [← h.ends_eq]
  exact ((List.pairwise_cons.mp h.wellNested.ordered).2.sublist (List.sublist_append_left ..))

/-- A sequence whose end is that of the innermost one can be taken for it. -/
theorem Tracked.ends_eraseIdx (h : s.Tracked) (hplace : s.unclosed[place]? = some opened)
    (hhead : s.reader.ends.head? = some opened.stop) :
    s.reader.ends.tail = (s.unclosed.eraseIdx place).map Opened.stop ∧
      ∀ inner ∈ s.unclosed.take place, inner.stop = opened.stop := by
  have hstop : (s.unclosed.map Opened.stop)[place]? = some opened.stop := by
    rw [List.getElem?_map, hplace, Option.map_some]
  rw [h.ends_eq] at hhead ⊢
  obtain ⟨herase, htake⟩ := eraseIdx_eq_tail_of_pairwise h.ordered hstop hhead
  refine ⟨?_, fun inner hinner => htake _ ?_⟩
  · rw [← herase, List.eraseIdx_map]
  · rw [← List.map_take]
    exact List.mem_map_of_mem hinner

/-- Whatever is asked for, the reader keeps the ends of the sequences that are not closed. -/
theorem Tracked.step (h : s.Tracked) (ask : Ask) : (s.step ask).Tracked := by
  cases ask with
  | look call hlook =>
      refine ⟨(call.step_moves s.reader).wellNested h.wellNested, ?_⟩
      exact (Call.step_ends_of_isLook hlook s.reader).trans h.ends_eq
  | openSequence =>
      have hmoves := Reading.openSequence_moves s.reader
      obtain ⟨opened, r', hopen, hends⟩ | ⟨failure, r', hopen, hends⟩ :=
        Reading.openSequence_ends s.reader
      · rw [hopen] at hmoves
        simp only [Session.step, hopen]
        exact ⟨hmoves.wellNested h.wellNested, by rw [noteOpened, hends, h.ends_eq]; rfl⟩
      · rw [hopen] at hmoves
        simp only [Session.step, hopen]
        exact ⟨hmoves.wellNested h.wellNested, hends.trans h.ends_eq⟩
  | closeSequence place =>
      cases hplace : s.unclosed[place]? with
      | none =>
          simp only [Session.step, hplace]
          exact h
      | some opened =>
          have hmoves := Reading.closeSequence_moves opened s.reader
          simp only [Session.step, hplace]
          rcases hclose : Reading.closeSequence opened s.reader with ⟨answer, r'⟩
          rw [hclose] at hmoves
          cases answer with
          | ok a =>
              obtain ⟨-, hhead, rfl⟩ := Reading.closeSequence_eq_ok_iff.mp hclose
              exact ⟨hmoves.wellNested h.wellNested, (h.ends_eraseIdx hplace hhead).1⟩
          | error failure =>
              obtain rfl := Reading.closeSequence_of_error hclose
              exact h

/-- A reader keeps the ends of the sequences that are not closed, whatever was asked of it. -/
theorem run_tracked (input : Octets) (limits : Limits) (asks : List Ask) :
    (run asks (ofOctets input limits)).Tracked := by
  have hrun (s : Session) (h : s.Tracked) : (run asks s).Tracked := by
    induction asks generalizing s with
    | nil => exact h
    | cons ask asks ih => exact ih _ (h.step ask)
  exact hrun _ ⟨Reader.wellNested_ofOctets input limits, rfl⟩

/-- **Which sequences can be closed.** Whatever was asked of a reader, a sequence that is not closed
yet can be closed exactly if the reader stands at its end and all sequences that were opened after
it and are not closed yet end there too. The reader then has one end less; and where the sequence
cannot be closed, the reader is left as it was. -/
theorem run_closeSequence (input : Octets) (limits : Limits) (asks : List Ask)
    (hrun : run asks (ofOctets input limits) = s) (hplace : s.unclosed[place]? = some opened) :
    ((∃ r', Reading.closeSequence opened s.reader = (.ok (), r')) ↔
      s.reader.position = opened.stop ∧
        ∀ inner ∈ s.unclosed.take place, inner.stop = opened.stop) ∧
    (∀ r', Reading.closeSequence opened s.reader = (.ok (), r') →
      r' = { s.reader with ends := (s.unclosed.eraseIdx place).map Opened.stop }) ∧
    ∀ failure r', Reading.closeSequence opened s.reader = (.error failure, r') →
      r' = s.reader := by
  subst hrun
  have htracked := run_tracked input limits asks
  refine ⟨?_, ?_, fun failure r' => Reading.closeSequence_of_error⟩
  · constructor
    · rintro ⟨r', hclose⟩
      obtain ⟨hposition, hhead, -⟩ := Reading.closeSequence_eq_ok_iff.mp hclose
      exact ⟨hposition, (htracked.ends_eraseIdx hplace hhead).2⟩
    · rintro ⟨hposition, hinner⟩
      refine ⟨_, Reading.closeSequence_eq_ok_iff.mpr ⟨hposition, ?_, rfl⟩⟩
      rw [htracked.ends_eq, List.head?_map]
      cases hunclosed : (run asks (ofOctets input limits)).unclosed with
      | nil =>
          rw [hunclosed] at hplace
          cases hplace
      | cons innermost outer =>
          rw [hunclosed] at hplace hinner
          cases place with
          | zero =>
              obtain rfl := Option.some.inj hplace
              rfl
          | succ place =>
              have hstop := hinner innermost (List.mem_cons_self ..)
              exact congrArg some hstop
  · intro r' hclose
    obtain ⟨-, hhead, rfl⟩ := Reading.closeSequence_eq_ok_iff.mp hclose
    rw [(htracked.ends_eraseIdx hplace hhead).1]

/-- A reader that has opened a sequence and an empty one in it, in front of a null. -/
def beforeNull : Session :=
  run [.openSequence, .openSequence] (ofOctets [0x30, 0x04, 0x30, 0x00, 0x05, 0x00] .default)

/-- Two sequences are open in front of a null, of which the inner one can be closed and the outer
one cannot. -/
theorem run_closeSequence_beforeNull :
    beforeNull.unclosed = [⟨0x30, 4⟩, ⟨0x30, 6⟩] ∧
      (∃ r', Reading.closeSequence ⟨0x30, 4⟩ beforeNull.reader = (.ok (), r')) ∧
      ∀ r', Reading.closeSequence ⟨0x30, 6⟩ beforeNull.reader ≠ (.ok (), r') := by
  have hunclosed : beforeNull.unclosed = [⟨0x30, 4⟩, ⟨0x30, 6⟩] := by decide +kernel
  have hinner : beforeNull.unclosed[0]? = some ⟨0x30, 4⟩ := by rw [hunclosed]; rfl
  have houter : beforeNull.unclosed[1]? = some ⟨0x30, 6⟩ := by rw [hunclosed]; rfl
  obtain ⟨hclosed, -⟩ := run_closeSequence _ _ _ rfl hinner
  obtain ⟨hrefused, -⟩ := run_closeSequence _ _ _ rfl houter
  refine ⟨hunclosed, hclosed.mpr ⟨by decide +kernel, ?_⟩, fun r' h => ?_⟩
  · rw [List.take_zero]
    exact nofun
  · obtain ⟨hposition, -⟩ := hrefused.mp ⟨r', h⟩
    exact absurd hposition (by decide +kernel)

/-- Of a set and a sequence in it that ends where the set does, the set is closed while the sequence
is still open. -/
theorem closesOuter_commonEnd :
    (run [.openSequence, .openSequence] (ofOctets [0x31, 0x02, 0x30, 0x00] .default)).unclosed =
        [⟨0x30, 4⟩, ⟨0x31, 4⟩] ∧
      ∃ r', Reading.closeSequence ⟨0x31, 4⟩ (run [.openSequence, .openSequence]
        (ofOctets [0x31, 0x02, 0x30, 0x00] .default)).reader = (.ok (), r') := by
  refine ⟨?_, ⟨[0x31, 0x02, 0x30, 0x00], 4, [4], .default⟩, ?_⟩
  · decide +kernel
  · rfl

end Session

end DirectoryAccess.Ber
