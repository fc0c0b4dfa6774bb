import Mathlib.Data.List.Infix
import DirectoryAccess.Proofs.Ber.Run

/-!
# Reading is confined to the open sequences

A step sees of a reader its window, its place, the ends of its open sequences and its
limits, and nothing else (`Reader.SameView`, `Call.step_of_sameView`). While a sequence
stays open, the window ends where the sequence does at the latest. So two readers over
octets that are the same up to the end of a sequence cannot be told apart by any calls
that are made while the sequence is open, whatever follows it (`run_confined`).
-/

namespace DirectoryAccess.Ber

namespace Reader

/-! ## What a step can see -/

/-- Two readers that differ at most in what lies outside their windows. -/
structure SameView (r s : Reader) : Prop where
  /-- The windows are the same. -/
  window_eq : s.window = r.window
  /-- The places are the same. -/
  position_eq : s.position = r.position
  /-- The same sequences are open. -/
  ends_eq : s.ends = r.ends
  /-- The limits are the same. -/
  limits_eq : s.limits = r.limits

/-- What two readers show of themselves when a step has been made: all but their windows, since
what comes into view when a sequence is closed need not be the same. -/
structure SamePlace (r s : Reader) : Prop where
  /-- The places are the same. -/
  position_eq : s.position = r.position
  /-- The same sequences are open. -/
  ends_eq : s.ends = r.ends
  /-- The limits are the same. -/
  limits_eq : s.limits = r.limits

/-- Readers with the same view are in the same place. -/
theorem SameView.samePlace {r s : Reader} (h : SameView r s) : SamePlace r s :=
  ⟨h.position_eq, h.ends_eq, h.limits_eq⟩

/-- Readers with the same view are in the same place after any number of octets. -/
theorem SameView.advance {r s : Reader} (h : SameView r s) (count : Nat) :
    SamePlace (r.advance count) (s.advance count) := by
  refine ⟨?_, h.ends_eq, h.limits_eq⟩
  rw [advance_position, advance_position, h.position_eq]

end Reader

namespace Reading

open Reader

variable {α : Type} {r s : Reader}

/-- A step that answers two readers with the same view alike and leaves them at the same place. -/
def Alike (step : Reading α) (r s : Reader) : Prop :=
  (step s).1 = (step r).1 ∧ SamePlace (step r).2 (step s).2

/-- Readers with the same view read the same element, and then are in the same place. -/
theorem element_alike (h : SameView r s) : Alike element r s := by
  cases hd : Header.decode r.window with
  | error failure =>
      have hs : Header.decode s.window = .error failure := by rw [h.window_eq, hd]
      rw [Alike, element_of_header_error (header_of_error hd),
        element_of_header_error (header_of_error hs)]
      exact ⟨rfl, h.samePlace⟩
  | ok head =>
      have hs : Header.decode s.window = .ok head := by rw [h.window_eq, hd]
      rcases Nat.lt_or_ge r.limits.elementSize head.size with hsize | hsize
      · have hsize' : s.limits.elementSize < head.size := by rwa [h.limits_eq]
        rw [Alike, element_of_header_error (header_of_large hd hsize),
          element_of_header_error (header_of_large hs hsize'), h.limits_eq]
        exact ⟨rfl, h.samePlace⟩
      · have hsize' : head.size ≤ s.limits.elementSize := by rwa [h.limits_eq]
        rw [Alike, element_of_decode hd hsize, element_of_decode hs hsize', h.window_eq]
        exact ⟨rfl, h.advance _⟩

/-- Readers with the same view make the same of the next element. -/
theorem elementAs_alike (h : SameView r s) (view : Element → Except Failure α) :
    Alike (elementAs view) r s := by
  obtain ⟨hanswer, hplace⟩ := element_alike h
  rcases hr : element r with ⟨answer, r'⟩
  rcases hs : element s with ⟨answer', s'⟩
  rw [hr, hs] at hanswer hplace
  obtain rfl : answer = answer' := hanswer.symm
  cases answer with
  | error failure =>
      rw [Alike, elementAs_of_element_error hr, elementAs_of_element_error hs]
      exact ⟨rfl, hplace⟩
  | ok e =>
      rw [Alike, elementAs_of_element hr, elementAs_of_element hs]
      exact ⟨rfl, hplace⟩

/-- Readers with the same view open the same sequence. -/
theorem openSequence_alike (h : SameView r s) : Alike openSequence r s := by
  rcases Nat.lt_or_ge r.ends.length r.limits.depth with hdepth | hdepth
  case inr =>
    have hdepth' : s.limits.depth ≤ s.ends.length := by rwa [h.limits_eq, h.ends_eq]
    rw [Alike, openSequence_of_depth hdepth, openSequence_of_depth hdepth', h.limits_eq]
    exact ⟨rfl, h.samePlace⟩
  have hdepth' : s.ends.length < s.limits.depth := by rwa [h.limits_eq, h.ends_eq]
  cases hd : Header.decode r.window with
  | error failure =>
      have hs : Header.decode s.window = .error failure := by rw [h.window_eq, hd]
      rw [Alike, openSequence_of_header_error hdepth (header_of_error hd),
        openSequence_of_header_error hdepth' (header_of_error hs)]
      exact ⟨rfl, h.samePlace⟩
  | ok head =>
      have hs : Header.decode s.window = .ok head := by rw [h.window_eq, hd]
      rcases Nat.lt_or_ge r.limits.elementSize head.size with hsize | hsize
      · have hsize' : s.limits.elementSize < head.size := by rwa [h.limits_eq]
        rw [Alike, openSequence_of_header_error hdepth (header_of_large hd hsize),
          openSequence_of_header_error hdepth' (header_of_large hs hsize'), h.limits_eq]
        exact ⟨rfl, h.samePlace⟩
      have hsize' : head.size ≤ s.limits.elementSize := by rwa [h.limits_eq]
      cases hc : isConstructed head.tag with
      | false =>
          rw [Alike, openSequence_of_primitive hdepth hd hsize hc,
            openSequence_of_primitive hdepth' hs hsize' hc]
          exact ⟨rfl, h.advance _⟩
      | true =>
          rw [Alike, openSequence_of_constructed hdepth hd hsize hc,
            openSequence_of_constructed hdepth' hs hsize' hc, h.position_eq, h.ends_eq]
          exact ⟨rfl, (h.advance _).position_eq, rfl, h.limits_eq⟩

/-- Readers with the same view close a sequence alike. -/
theorem closeSequence_alike (h : SameView r s) (opened : Opened) :
    Alike (closeSequence opened) r s := by
  rw [Alike, closeSequence, closeSequence, h.position_eq, h.ends_eq]
  split
  · exact ⟨rfl, h.samePlace⟩
  split
  · exact ⟨rfl, h.samePlace⟩
  · exact ⟨rfl, rfl, rfl, h.limits_eq⟩

end Reading

/-- Two readers with the same view answer every call alike, and stand at the same place then. -/
theorem Call.step_of_sameView {r s : Reader} (h : Reader.SameView r s) (call : Call) :
    Reading.Alike call.step r s := by
  cases hview : call.view? with
  | some view =>
      rw [step_of_view? hview]
      exact Reading.elementAs_alike h view
  | none =>
      cases call with
      | peek =>
          refine ⟨?_, h.samePlace⟩
          change Except.ok s.peek? = .ok r.peek?
          rw [Reader.peek?, h.window_eq, Reader.peek?]
      | openSequence => exact Reading.openSequence_alike h
      | hasMore opened =>
          refine ⟨?_, h.samePlace⟩
          change Except.ok (s.hasMore opened) = .ok (r.hasMore opened)
          rw [Reader.hasMore, h.position_eq, Reader.hasMore]
      | closeSequence opened => exact Reading.closeSequence_alike h opened
      | element | octets | integer | int32 | text => cases hview

namespace Reader

variable {r s : Reader} {stop : Nat} {outer : List Nat} {calls : List Call}

/-! ## What stays inside -/

/-- The sequence that ends at `stop`, inside those that end at `outer`, is open, and none that has
been opened in it reaches beyond it. -/
def HasOpen (r : Reader) (stop : Nat) (outer : List Nat) : Prop :=
  ∃ inner, r.ends = inner ++ stop :: outer ∧ ∀ n ∈ inner, n ≤ stop

/-- The innermost sequence that is open is one that is open. -/
theorem hasOpen_of_ends_eq (h : r.ends = stop :: outer) : r.HasOpen stop outer :=
  ⟨[], h, fun _ hn => absurd hn List.not_mem_nil⟩

/-- What a reader sees inside an open sequence ends where the sequence does, at the latest. -/
theorem HasOpen.limit_le (h : r.HasOpen stop outer) : r.limit ≤ stop := by
  obtain ⟨inner, hends, hinner⟩ := h
  rw [limit, hends]
  cases inner with
  | nil => exact Nat.le_refl stop
  | cons n inner => exact hinner n (List.mem_cons_self ..)

/-- Which sequences are open settles where the view inside one of them ends. -/
theorem HasOpen.limit_eq (h : r.HasOpen stop outer) (hends : s.ends = r.ends) :
    s.limit = r.limit := by
  obtain ⟨inner, hr, -⟩ := h
  rw [limit, limit, hends, hr]
  cases inner <;> rfl

/-- A sequence that is open before a move and after it still holds all that is open in it: a
sequence that the move opens lies in the window, which ends there at the latest. -/
theorem HasOpen.of_moves {r' : Reader} (h : r.HasOpen stop outer) (hm : Moves r r')
    (hopen : stop :: outer <:+ r'.ends) : r'.HasOpen stop outer := by
  have hlimit := h.limit_le
  obtain ⟨inner, hends, hinner⟩ := h
  cases hm with
  | stay => exact ⟨inner, hends, hinner⟩
  | pass head n hd hn => exact ⟨inner, hends, hinner⟩
  | enter head hd hdepth =>
      have hle := (Header.le_length_of_decode hd).2
      have hpos := (Header.le_length_of_decode hd).1
      rw [length_window] at hle
      refine ⟨(r.position + head.width + head.size) :: inner, ?_, ?_⟩
      · rw [hends]
        rfl
      · intro n hn
        rcases List.mem_cons.mp hn with rfl | hn
        · omega
        · exact hinner n hn
  | leave hstop =>
      cases inner with
      | nil =>
          have hlength : (stop :: outer).length ≤ r.ends.tail.length := hopen.length_le
          rw [hends, List.nil_append, List.tail_cons, List.length_cons] at hlength
          exact absurd hlength (Nat.not_succ_le_self _)
      | cons n inner =>
          refine ⟨inner, ?_, fun m hm => hinner m (List.mem_cons_of_mem _ hm)⟩
          rw [hends]
          rfl

/-! ## Two runs -/

/-- Two readers at the same place, over octets that are the same up to `stop`. -/
structure SameUpTo (stop : Nat) (r s : Reader) : Prop extends SamePlace r s where
  /-- The octets up to `stop` are the same. -/
  input_eq : s.input.take stop = r.input.take stop

/-- Inside a sequence, octets that are the same up to its end make the same view. -/
theorem SameUpTo.sameView (h : SameUpTo stop r s) (hopen : r.HasOpen stop outer) :
    SameView r s := by
  refine ⟨?_, h.position_eq, h.ends_eq, h.limits_eq⟩
  have hlimit := hopen.limit_eq h.ends_eq
  have htake (input : Octets) : input.take r.limit = (input.take stop).take r.limit := by
    rw [List.take_take, Nat.min_eq_left hopen.limit_le]
  rw [window, window, hlimit, h.position_eq, htake s.input, h.input_eq, ← htake r.input]

/-- The octets stay the same up to `stop` when a call is made inside the sequence. -/
theorem SameUpTo.step (h : SameUpTo stop r s) (hopen : r.HasOpen stop outer) (call : Call) :
    (call.step s).1 = (call.step r).1 ∧ SameUpTo stop (call.step r).2 (call.step s).2 := by
  obtain ⟨hanswer, hplace⟩ := call.step_of_sameView (h.sameView hopen)
  refine ⟨hanswer, hplace, ?_⟩
  rw [(call.step_moves s).input_eq, (call.step_moves r).input_eq, h.input_eq]

/-- A call, what the reader showed of itself before it, and what it answered. -/
structure Exchange where
  /-- The place of the reader. -/
  position : Nat
  /-- The ends of the open sequences. -/
  ends : List Nat
  /-- The number of octets left before the innermost end. -/
  remaining : Nat
  /-- Whether octets are left before the innermost end. -/
  hasRemaining : Bool
  /-- The call. -/
  call : Call
  /-- The answer, or the failure in its wording. -/
  answer : Except Failure call.Answer

/-- What the holder of a reader gets to know from one call. -/
def exchange (call : Call) (r : Reader) : Exchange :=
  ⟨r.position, r.ends, r.remaining, r.hasRemaining, call, (call.step r).1⟩

/-- What the holder of a reader gets to know from some calls, one after the other. -/
def transcript : List Call → Reader → List Exchange
  | [], _ => []
  | call :: calls, r => exchange call r :: transcript calls (call.step r).2

/-- Each of some calls is made while the sequences with the given ends are still open. -/
def MadeInside (ends : List Nat) : List Call → Reader → Prop
  | [], _ => True
  | call :: calls, r => ends <:+ r.ends ∧ MadeInside ends calls (call.step r).2

/-- The exchange of one more call is the same for two readers inside a sequence, if the octets up to
its end are. -/
theorem SameUpTo.exchange_eq (h : SameUpTo stop r s) (hopen : r.HasOpen stop outer) (call : Call) :
    exchange call s = exchange call r := by
  rw [exchange, exchange, (h.step hopen call).1, remaining, remaining, hasRemaining, hasRemaining,
    hopen.limit_eq h.ends_eq, h.position_eq, h.ends_eq]

/-- While a sequence is open, two readers over octets that are the same up to its end tell the
same. -/
theorem SameUpTo.transcript_eq (h : SameUpTo stop r s) (hopen : r.HasOpen stop outer)
    (hinside : MadeInside (stop :: outer) calls r) :
    transcript calls s = transcript calls r ∧ SamePlace (run calls r) (run calls s) := by
  induction calls generalizing r s with
  | nil => exact ⟨rfl, h.toSamePlace⟩
  | cons call calls ih =>
      have hexchange := h.exchange_eq hopen call
      have hstep := (h.step hopen call).2
      rw [transcript, transcript, hexchange]
      cases calls with
      | nil => exact ⟨rfl, hstep.toSamePlace⟩
      | cons next calls =>
          have hnext := hopen.of_moves (call.step_moves r) hinside.2.1
          obtain ⟨htranscript, hplace⟩ := ih hstep hnext hinside.2
          exact ⟨congrArg _ htranscript, hplace⟩

/-- **Reading is confined.** Take two readers with the same limits at the same place in the same
open sequences, the innermost of which ends at `stop`, over octets that are the same up to there.
Whatever calls are made while that sequence is open, both readers answer each of them alike, with
the same values and the same failures, and show the same place, the same open sequences and the same
number of octets left before each call and the same place and sequences after the last one. -/
theorem run_confined (hlimits : s.limits = r.limits) (hposition : s.position = r.position)
    (hends : r.ends = stop :: outer) (hsame : s.ends = r.ends)
    (hinput : s.input.take stop = r.input.take stop) (hinside : MadeInside r.ends calls r) :
    transcript calls s = transcript calls r ∧
      (run calls s).position = (run calls r).position ∧ (run calls s).ends = (run calls r).ends := by
  rw [hends] at hinside
  have hupto : SameUpTo stop r s := ⟨⟨hposition, hsame, hlimits⟩, hinput⟩
  obtain ⟨htranscript, hplace⟩ := hupto.transcript_eq (hasOpen_of_ends_eq hends) hinside
  exact ⟨htranscript, hplace.position_eq, hplace.ends_eq⟩

/-- A reader in a sequence of a number and a text that is declared longer than the sequence is,
with some octets behind the sequence. -/
def overdrawn (rest : Octets) : Reader :=
  ⟨[0x30, 0x05, 0x02, 0x01, 0x05, 0x04, 0x03] ++ rest, 2, [7], .default⟩

/-- Two readers with other octets behind an open sequence are asked the same within it, and a text
that goes beyond the end of the sequence is refused. -/
theorem run_confined_overdrawn :
    (overdrawn []).input.take 7 = (overdrawn [0x41, 0x42, 0x43]).input.take 7 ∧
      MadeInside [7] [.int32, .text, .closeSequence ⟨0x30, 7⟩] (overdrawn [0x41, 0x42, 0x43]) ∧
      transcript [.int32, .text, .closeSequence ⟨0x30, 7⟩] (overdrawn []) =
        transcript [.int32, .text, .closeSequence ⟨0x30, 7⟩] (overdrawn [0x41, 0x42, 0x43]) ∧
      (Reading.text (run [.int32] (overdrawn [0x41, 0x42, 0x43]))).1 =
        .error (Fault.overrun 0x04 3 0) := by
  have hinside : MadeInside [7] [.int32, .text, .closeSequence ⟨0x30, 7⟩]
      (overdrawn [0x41, 0x42, 0x43]) :=
    ⟨List.suffix_rfl, List.suffix_rfl, List.suffix_rfl, trivial⟩
  exact ⟨rfl, hinside, (run_confined rfl rfl rfl rfl rfl hinside).1, by decide +kernel⟩

end Reader

end DirectoryAccess.Ber
