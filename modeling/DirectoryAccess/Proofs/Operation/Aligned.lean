import DirectoryAccess.Proofs.Operation.Stream

/-!
# Where a reader stands when an operation is refused

An operation of most kinds is taken off the stream as an element before it is looked at, and
a request to delete an entry is the text of one, so the reader stands behind the element
whether or not it is accepted. An extended request is opened as a sequence, and its parts are
read in it. Where all of them are accepted the sequence is closed, and the reader stands
behind it too. Where one is refused the sequence stays open, and the reader stays in it
(`ExtendedRequest.leaves_readParts`): what is read next is the rest of the request. No other
operation leaves a reader elsewhere than behind its element (`Operation.read_aligned_iff`).
-/

namespace DirectoryAccess

open Ber (Element Header Opened Reader Reading isConstructed)

/-! ## Readings in a sequence -/

namespace Ber.Reader

variable {α β : Type} {outer r : Reader} {stop : Nat}

/-- A reader that goes on in its window stays in the sequence. -/
theorem Inside.advance (h : Inside outer stop r) {n : Nat} (hn : n ≤ r.window.length) :
    Inside outer stop (r.advance n) := by
  have hposition := h.position_le
  have hsize := h.size_le
  rw [h.length_window] at hn
  refine ⟨h.input_eq, h.limits_eq, h.ends_eq, ?_, h.stop_le, ?_⟩
  · rw [advance_position]
    omega
  · rw [advance_position, advance_limits]
    omega

/-- Reading an element does not lead out of a sequence, whether or not there is one. -/
theorem Inside.element (h : Inside outer stop r) : Inside outer stop (Reading.element r).2 := by
  obtain ⟨n, hn, hadvance⟩ := Reading.element_advances r
  rw [hadvance]
  exact h.advance hn

/-- How a reading in a sequence that a reader has opened can end: the sequence has been read and is
closed, or there is a failure and the reader is still in the sequence. -/
inductive Leaves (outer : Reader) (stop : Nat) : Except Failure α × Reader → Prop
  /-- The reader stands behind the sequence. -/
  | behind (a : α) : Leaves outer stop (.ok a, { outer with position := stop })
  /-- The reader stands in the sequence. -/
  | within (failure : Failure) {s : Reader} (h : Inside outer stop s) :
      Leaves outer stop (.error failure, s)

namespace Leaves

/-- A failure that is explained leaves the reader where it is. -/
theorem explain {step : Reading α} (message : String) (h : Leaves outer stop (step r)) :
    Leaves outer stop (Reading.explain message step r) := by
  rcases hstep : step r with ⟨answer, s⟩
  rw [hstep] at h
  cases h with
  | behind a =>
      rw [Reading.explain_of_ok message hstep]
      exact .behind a
  | within failure hin =>
      rw [Reading.explain_of_error message hstep]
      exact .within _ hin

/-- What is made of the operation leaves the reader where it is. -/
theorem map {step : Reading α} (f : α → β) (h : Leaves outer stop (step r)) :
    Leaves outer stop ((f <$> step) r) := by
  rcases hstep : step r with ⟨answer, s⟩
  rw [hstep] at h
  cases h with
  | behind a =>
      rw [Reading.map_of_ok hstep]
      exact .behind (f a)
  | within failure hin =>
      rw [Reading.map_of_error hstep]
      exact .within failure hin

/-- A reading that goes on in the sequence ends as what it goes on with does. -/
theorem bind {step : Reading α} {next : α → Reading β} (hin : Inside outer stop (step r).2)
    (hnext : ∀ a s, Inside outer stop s → Leaves outer stop (next a s)) :
    Leaves outer stop ((step >>= next) r) := by
  rcases hstep : step r with ⟨answer, s⟩
  rw [hstep] at hin
  cases answer with
  | ok a =>
      rw [Reading.bind_of_ok hstep]
      exact hnext a s hin
  | error failure =>
      rw [Reading.bind_of_error hstep]
      exact .within failure hin

/-- A reading of a part that may be missing ends as what it goes on with does. -/
theorem ifMore {step : Reading α} {default : α} {next : α → Reading β} (opened : Opened)
    (hr : Inside outer stop r) (hin : Inside outer stop (step r).2)
    (hnext : ∀ a s, Inside outer stop s → Leaves outer stop (next a s)) :
    Leaves outer stop (Reading.ifMore opened step default next r) := by
  rw [Reading.ifMore, Reading.view_bind_apply]
  cases r.hasMore opened with
  | true => exact bind hin hnext
  | false => exact hnext default r hr

/-- The reader stands behind the sequence, with the sequences open that were open before, exactly if
there is an answer. -/
theorem aligned_iff {result : Except Failure α × Reader} (h : Leaves outer stop result) :
    (result.2.position = stop ∧ result.2.ends = outer.ends) ↔ ∃ a, result.1 = .ok a := by
  cases h with
  | behind a => exact ⟨fun _ => ⟨a, rfl⟩, fun _ => ⟨rfl, rfl⟩⟩
  | within failure hin =>
      refine ⟨fun h => ?_, nofun⟩
      have hlength := congrArg List.length (hin.ends_eq.symm.trans h.2)
      rw [List.length_cons] at hlength
      omega

end Leaves

end Ber.Reader

open Ber.Reader (Inside Leaves)

/-! ## Extended requests -/

namespace ExtendedRequest

variable {outer r : Reader} {stop : Nat}

/-- The name is read with the next element. -/
theorem readOid_snd (r : Reader) : (readOid r).2 = (Reading.element r).2 := by
  have hlook : readOid = Reading.explain "cannot decode the request OID"
      (Reading.elementAs fun e => e.asText >>= Oid.ofString) := by
    rw [readOid, Reading.text_eq_elementAs, Reading.elementAs_bind]
  rw [hlook]
  exact Reading.elementAs_snd _ r

/-- The value is read with the next element. -/
theorem readValue_snd (r : Reader) : (readValue r).2 = (Reading.element r).2 := by
  rw [readValue, Reading.octets_eq_elementAs]
  exact (congrArg Prod.snd (map_apply _ some r)).trans (Reading.elementAs_snd _ r)

/-- A request is closed behind its sequence, or the reader stays in it. -/
theorem leaves_readEnd (hin : Inside outer stop r) (tag : UInt8) (request : ExtendedRequest) :
    Leaves outer stop (readEnd ⟨tag, stop⟩ request r) := by
  by_cases hw : r.window = []
  · rw [readEnd_of_nil hin hw]
    exact .behind request
  · obtain ⟨failure, hrefused⟩ := readEnd_of_ne_nil hin hw request
    rw [hrefused]
    exact .within failure hin

/-- A request that is refused leaves the reader in the sequence that it is. -/
theorem leaves_readParts {head : Header} (hdepth : r.ends.length < r.limits.depth)
    (hd : Header.decode r.window = .ok head) (hs : head.size ≤ r.limits.elementSize)
    (hc : isConstructed head.tag = true) :
    Leaves r (r.position + head.width + head.size) (readParts r) := by
  obtain ⟨inner, hopen, hin, -⟩ := Reading.openSequence_inside hdepth hd hs hc
  rw [readParts_eq, Reading.bind_of_ok hopen]
  refine .bind ?_ fun oid s hs => .ifMore _ hs ?_ fun value s' hs' => ?_
  · rw [readOid_snd]
    exact hin.element
  · rw [readValue_snd]
    exact hs.element
  · exact leaves_readEnd hs' head.tag ⟨oid, value⟩

end ExtendedRequest

/-! ## Operations -/

variable {r : Reader} {head : Header} {kind : Kind}

/-- An operation that is not an extended request is read with the next element. -/
theorem readAs_snd (hkind : kind ≠ .extendedRequest) (hnext : r.peek? = some kind.tag) :
    (readAs kind r).2 = (Reading.element r).2 := by
  by_cases hdelete : kind = .deleteRequest
  · subst hdelete
    rw [readAs, readPieces, Reading.view_bind_apply, if_pos hnext, Reading.text_eq_elementAs]
    exact Reading.elementAs_snd _ r
  · rw [readAs_eq_readWhole hkind hdelete, readWhole]
    rcases he : Reading.element r with ⟨answer, s⟩
    cases answer with
    | ok e => rw [Reading.bind_of_ok (Reading.explain_of_ok _ he), Reading.ofExcept_apply]
    | error failure => rw [Reading.bind_of_error (Reading.explain_of_error _ he)]

namespace Operation

/-- An operation is read as its type octet says. -/
theorem read_eq_readAs (hnext : r.peek? = some kind.tag) :
    read r = (Operation.mk kind <$> readAs kind) r := by
  rw [read, Reading.view_bind_apply, hnext]
  simp only [Kind.ofTag?_tag]

/-- An extended request that is refused leaves the reader in the sequence that it is. -/
theorem leaves_read (hdepth : r.ends.length < r.limits.depth)
    (hd : Header.decode r.window = .ok head) (hs : head.size ≤ r.limits.elementSize)
    (htag : head.tag = Kind.extendedRequest.tag) :
    Leaves r (r.position + head.width + head.size) (read r) := by
  have hnext : r.peek? = some Kind.extendedRequest.tag := by
    rw [← htag]
    exact Header.head?_of_decode hd
  have hconstructed : isConstructed head.tag = true := by
    rw [htag]
    rfl
  rw [read_eq_readAs hnext]
  refine .map _ ?_
  rw [readAs, readPieces, Reading.view_bind_apply, if_pos hnext]
  exact .explain _ (ExtendedRequest.leaves_readParts hdepth hd hs hconstructed)

/-- **Where a reader stands after an operation.** Let the next element of a reader have the type of
an operation, let it be complete and not too large, and let there be room for one more open
sequence. When the operation has been read or refused, the reader stands behind the element with the
same sequences open as before exactly if it is not an extended request, or has been accepted. An
extended request that is refused leaves the reader in the sequence that it is, which stays open. -/
theorem read_aligned_iff (hdepth : r.ends.length < r.limits.depth)
    (hd : Header.decode r.window = .ok head) (hs : head.size ≤ r.limits.elementSize)
    (hkind : Kind.ofTag? head.tag = some kind) :
    (((read r).2.position = r.position + head.width + head.size ∧ (read r).2.ends = r.ends) ↔
      kind ≠ .extendedRequest ∨ ∃ op, (read r).1 = .ok op) ∧
    (kind = .extendedRequest → ∀ failure, (read r).1 = .error failure →
      Inside r (r.position + head.width + head.size) (read r).2) := by
  have htag := Kind.tag_of_ofTag? hkind
  by_cases hext : kind = .extendedRequest
  · subst hext
    have hleaves := leaves_read hdepth hd hs htag.symm
    refine ⟨hleaves.aligned_iff.trans ⟨.inr, fun h => h.resolve_left fun hne => hne rfl⟩, ?_⟩
    intro _ failure hfailure
    rcases hread : read r with ⟨answer, s⟩
    rw [hread] at hleaves hfailure
    cases hleaves with
    | behind a => cases hfailure
    | within failure hin => exact hin
  · have hnext : r.peek? = some kind.tag := by
      rw [htag]
      exact Header.head?_of_decode hd
    have hafter : (read r).2 = r.advance (head.width + head.size) := by
      rw [read_eq_readAs hnext, map_apply]
      exact (readAs_snd hext hnext).trans (congrArg Prod.snd (Reading.element_of_decode hd hs))
    refine ⟨⟨fun _ => .inl hext, fun _ => ?_⟩, fun h => absurd h hext⟩
    rw [hafter, Reader.advance_position, Nat.add_assoc]
    exact ⟨rfl, rfl⟩

/-- A reader in a sequence, in front of a request to give up a request that has no number. -/
def numberlessRequest : Reader := ⟨[0x30, 0x02, 0x50, 0x00], 2, [4], .default⟩

/-- Behind a request that is refused the reader stands at the end of its element. -/
theorem read_aligned_iff_numberlessRequest :
    (read numberlessRequest).2.position = 4 ∧ (read numberlessRequest).2.ends = [4] ∧
      ∃ failure, (read numberlessRequest).1 = .error failure := by
  have hhead : Header.decode numberlessRequest.window = .ok ⟨0x50, 2, 0⟩ := rfl
  have hkind : Kind.ofTag? 0x50 = some .abandonRequest := rfl
  obtain ⟨haligned, -⟩ := read_aligned_iff (by decide) hhead (by decide) hkind
  obtain ⟨hposition, hends⟩ := haligned.mpr (.inl nofun)
  exact ⟨hposition, hends, _, rfl⟩

/-- An extended request without a name, which is refused, in front of a request to unbind. -/
def namelessRequest : Reader :=
  Reader.ofOctets [0x77, 0x04, 0x80, 0x00, 0x81, 0x00, 0x42, 0x00] .default

/-- Behind the name of the refused request, the reader stands in front of its value, in a sequence
that was not open before. -/
theorem read_namelessRequest_unaligned :
    namelessRequest.ends.length < namelessRequest.limits.depth ∧
      Header.decode namelessRequest.window = .ok ⟨0x77, 2, 4⟩ ∧
      4 ≤ namelessRequest.limits.elementSize ∧
      Kind.ofTag? 0x77 = some .extendedRequest ∧
      (∃ failure, (read namelessRequest).1 = .error failure) ∧
      (read namelessRequest).2.position = 4 ∧ namelessRequest.position + 2 + 4 = 6 ∧
      (read namelessRequest).2.ends = [6] ∧ namelessRequest.ends = [] := by
  refine ⟨by decide, rfl, by decide, rfl, ⟨_, rfl⟩, rfl, rfl, rfl, rfl⟩

end Operation

end DirectoryAccess
