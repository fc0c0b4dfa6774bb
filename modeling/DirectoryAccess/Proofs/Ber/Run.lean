import DirectoryAccess.Proofs.Ber.Checked

/-!
# Runs of a reader

Whoever holds a reader may call its steps in any order, with any sequence to be
closed, and go on after a step that has failed. Each call makes one of the moves
of `Reader.Moves`, so a reader that was well nested when it was made is well nested
after every run. A well-nested reader is sound (`Reader.Sound`): what any call reads
lies where its header says and inside all that is open, and no slice, octet or
difference that a call takes is out of bounds.
-/

namespace DirectoryAccess.Ber

/-- A step that the holder of a reader can ask for. -/
inductive Call
  /-- The next element. -/
  | element
  /-- The value of the next element. -/
  | octets
  /-- The value of the next element as a number of at most 64 bits. -/
  | integer
  /-- The value of the next element as a number of 32 bits. -/
  | int32
  /-- The value of the next element as a text. -/
  | text
  /-- The type octet of the next element. -/
  | peek
  /-- Opens the next element as a sequence. -/
  | openSequence
  /-- Whether a sequence has more elements. -/
  | hasMore (opened : Opened)
  /-- Closes a sequence. -/
  | closeSequence (opened : Opened)
  deriving DecidableEq, Repr

namespace Call

/-- What a call answers. -/
abbrev Answer : Call → Type
  | element => Element
  | octets => Octets
  | integer => Int
  | int32 => Int32
  | text => String
  | peek => Option UInt8
  | openSequence => Opened
  | hasMore _ => Bool
  | closeSequence _ => Unit

/-- The step of a call. -/
def step : (call : Call) → Reading call.Answer
  | element => Reading.element
  | octets => Reading.octets
  | integer => Reading.integer
  | int32 => Reading.int32
  | text => Reading.text
  | peek => Reading.view Reader.peek?
  | openSequence => Reading.openSequence
  | hasMore opened => Reading.view (·.hasMore opened)
  | closeSequence opened => Reading.closeSequence opened

/-- The step of a call with every bound checked. -/
def checked : (call : Call) → Reader → Option (Except Failure call.Answer × Reader)
  | element, r => Checked.element r
  | octets, r => Checked.elementAs (fun e => some (.ok e.value)) r
  | integer, r => Checked.elementAs (fun e => Checked.integer e.value) r
  | int32, r =>
    Checked.elementAs (fun e => (Checked.integer e.value).map (· >>= toInt32)) r
  | text, r => Checked.elementAs (fun e => some e.asText) r
  | peek, r => (Checked.peek r).map fun tag => (.ok tag, r)
  | openSequence, r => Checked.openSequence r
  | hasMore opened, r => some (.ok (r.hasMore opened), r)
  | closeSequence opened, r => Checked.closeSequence opened r

/-- How a call that reads an element looks at it. -/
def view? : (call : Call) → Option (Element → Except Failure call.Answer)
  | element => some .ok
  | octets => some fun e => .ok e.value
  | integer => some Element.asInteger
  | int32 => some Element.asInt32
  | text => some Element.asText
  | _ => none

/-- A call that reads an element looks at the next one. -/
theorem step_of_view? {call : Call} {view : Element → Except Failure call.Answer}
    (h : call.view? = some view) : call.step = Reading.elementAs view := by
  cases call with
  | element =>
      obtain rfl := Option.some.inj h
      exact (bind_pure Reading.element).symm
  | octets =>
      obtain rfl := Option.some.inj h
      exact Reading.octets_eq_elementAs
  | integer =>
      obtain rfl := Option.some.inj h
      exact Reading.integer_eq_elementAs
  | int32 =>
      obtain rfl := Option.some.inj h
      exact Reading.int32_eq_elementAs
  | text =>
      obtain rfl := Option.some.inj h
      exact Reading.text_eq_elementAs
  | peek => cases h
  | openSequence => cases h
  | hasMore opened => cases h
  | closeSequence opened => cases h

/-- Every call makes one of the moves of a reader. -/
theorem step_moves (call : Call) (r : Reader) : r.Moves (call.step r).2 := by
  cases hview : call.view? with
  | some view =>
      rw [step_of_view? hview]
      exact Reading.elementAs_moves r
  | none =>
      cases call with
      | peek => exact .stay
      | openSequence => exact Reading.openSequence_moves r
      | hasMore opened => exact .stay
      | closeSequence opened => exact Reading.closeSequence_moves opened r
      | element | octets | integer | int32 | text => cases hview

/-- Of a well-nested reader every call has all that it needs within bounds. -/
theorem checked_eq {r : Reader} (h : r.WellNested) (call : Call) :
    call.checked r = some (call.step r) := by
  cases call with
  | element => exact Checked.element_eq h
  | octets => exact Checked.elementAs_eq h fun _ => rfl
  | integer =>
      rw [step_of_view? rfl]
      exact Checked.elementAs_eq h fun e => Checked.integer_eq e.value
  | int32 =>
      rw [step_of_view? rfl]
      refine Checked.elementAs_eq h fun e => ?_
      rw [Checked.integer_eq, Option.map_some]
      rfl
  | text =>
      rw [step_of_view? rfl]
      exact Checked.elementAs_eq h fun _ => rfl
  | peek =>
      rw [checked, Checked.peek_eq h]
      rfl
  | openSequence => exact Checked.openSequence_eq h
  | hasMore opened => rfl
  | closeSequence opened => exact Checked.closeSequence_eq h opened

end Call

namespace Reader

/-- The reader after some calls, whatever they answered. -/
def run : List Call → Reader → Reader
  | [], r => r
  | call :: calls, r => run calls (call.step r).2

/-- The value that a header announces is the slice behind it, is not too large, and lies inside
every open sequence; a reader that has read it stands behind it. -/
structure Reads (r : Reader) (head : Header) (value : Octets) (s : Reader) : Prop where
  /-- The header is the next one. -/
  header_eq : Header.decode r.window = .ok head
  /-- The value is the slice behind the header. -/
  value_eq : value = (r.input.drop (r.position + head.width)).take head.size
  /-- The value has all the octets that the header announces. -/
  length_eq : value.length = head.size
  /-- The value is not too large. -/
  size_le : head.size ≤ r.limits.elementSize
  /-- The value lies inside every open sequence and in the octets. -/
  inside : ∀ stop ∈ r.bounds, r.position + head.width + head.size ≤ stop
  /-- The reader has gone on, just behind the value. -/
  position_lt : r.position < s.position
  /-- Nothing else of the reader has changed. -/
  after_eq : s = { r with position := r.position + head.width + head.size }

/-- Whatever is asked of a reader next is done within bounds and without going back. -/
structure Sound (r : Reader) : Prop where
  /-- No slice, octet or difference is out of bounds. -/
  checked : ∀ call : Call, call.checked r = some (call.step r)
  /-- The reader never goes back. -/
  position_le : ∀ call : Call, r.position ≤ (call.step r).2.position
  /-- An answer is read off a value that lies where it should. -/
  reads : ∀ (call : Call) (view : Element → Except Failure call.Answer) (answer : call.Answer)
    (s : Reader), call.view? = some view → call.step r = (.ok answer, s) →
      ∃ head value, r.Reads head value s ∧ view ⟨head.tag, value⟩ = .ok answer
  /-- A sequence that is opened lies inside those that are open, behind a header. -/
  opens : ∀ (opened : Opened) (s : Reader), Reading.openSequence r = (.ok opened, s) →
    r.position < s.position ∧ s.position ≤ opened.stop ∧ ∀ stop ∈ r.bounds, opened.stop ≤ stop

variable {r : Reader}

/-- An element that is read lies where its header says. -/
theorem WellNested.reads (h : r.WellNested) {e : Element} {s : Reader}
    (he : Reading.element r = (.ok e, s)) : ∃ head, e.tag = head.tag ∧ r.Reads head e.value s := by
  obtain ⟨head, hd, hs, rfl, rfl⟩ := Reading.element_eq_ok_iff.mp he
  obtain ⟨hwidth, hle⟩ := Header.le_length_of_decode hd
  refine ⟨head, rfl, hd, (take_drop_window hle).symm, ?_, hs, ?_, ?_, ?_⟩
  · rw [List.length_take, List.length_drop]
    omega
  · intro stop hstop
    rw [Nat.add_assoc]
    exact h.advance_le hle hstop
  · rw [advance_position]
    omega
  · exact Reader.advance_add r _ _

/-- A sequence that is opened lies inside those that are open. -/
theorem WellNested.opens (h : r.WellNested) {opened : Opened} {s : Reader}
    (ho : Reading.openSequence r = (.ok opened, s)) :
    r.position < s.position ∧ s.position ≤ opened.stop ∧ ∀ stop ∈ r.bounds, opened.stop ≤ stop := by
  obtain ⟨head, hd, -, hopen⟩ | ⟨failure, hopen⟩ | ⟨failure, head, hd, hopen⟩ :=
    Reading.openSequence_cases r
  · rw [hopen] at ho
    cases ho
    obtain ⟨hwidth, hle⟩ := Header.le_length_of_decode hd
    refine ⟨Nat.lt_add_of_pos_right hwidth, Nat.le_add_right _ _, ?_⟩
    intro stop hstop
    change r.position + head.width + head.size ≤ stop
    rw [Nat.add_assoc]
    exact h.advance_le hle hstop
  · rw [hopen] at ho
    cases ho
  · rw [hopen] at ho
    cases ho

/-- A well-nested reader is sound. -/
theorem WellNested.sound (h : r.WellNested) : r.Sound where
  checked := Call.checked_eq h
  position_le call := (call.step_moves r).position_le
  reads := by
    intro call view answer s hview hstep
    rw [Call.step_of_view? hview] at hstep
    cases he : Reading.element r with
    | mk outcome s' =>
        cases outcome with
        | error failure =>
            rw [Reading.elementAs_of_element_error he] at hstep
            cases hstep
        | ok e =>
            rw [Reading.elementAs_of_element he] at hstep
            obtain ⟨hanswer, rfl⟩ := Prod.mk.inj hstep
            obtain ⟨head, htag, hreads⟩ := h.reads he
            refine ⟨head, e.value, hreads, ?_⟩
            rw [← htag]
            exact hanswer
  opens _ _ := h.opens

/-- A run keeps a reader well nested, and its octets and limits. -/
theorem run_keeps (calls : List Call) (h : r.WellNested) :
    (run calls r).WellNested ∧ (run calls r).input = r.input ∧
      (run calls r).limits = r.limits ∧ r.position ≤ (run calls r).position := by
  induction calls generalizing r with
  | nil => exact ⟨h, rfl, rfl, Nat.le_refl _⟩
  | cons call calls ih =>
      have hmoves := call.step_moves r
      obtain ⟨hnested, hinput, hlimits, hposition⟩ := ih (hmoves.wellNested h)
      exact ⟨hnested, hinput.trans hmoves.input_eq, hlimits.trans hmoves.limits_eq,
        Nat.le_trans hmoves.position_le hposition⟩

/-- **Runs of a reader.** Whatever is asked of a reader in whatever order, and whatever of it
succeeds, the place, the ends of the open sequences and the end of the octets stay in order, no more
sequences are open than are allowed, nothing that is asked later goes back, and the next call is
sound whichever it is. -/
theorem run_sound (input : Octets) (limits : Limits) (calls : List Call) :
    (run calls (ofOctets input limits)).WellNested ∧
      (run calls (ofOctets input limits)).input = input ∧
      (run calls (ofOctets input limits)).limits = limits ∧
      (∀ more, (run calls (ofOctets input limits)).position ≤
        (run more (run calls (ofOctets input limits))).position) ∧
      (run calls (ofOctets input limits)).Sound := by
  obtain ⟨hnested, hinput, hlimits, -⟩ := run_keeps calls (wellNested_ofOctets input limits)
  refine ⟨hnested, hinput, hlimits, ?_, hnested.sound⟩
  intro more
  exact (run_keeps more hnested).2.2.2

end Reader

end DirectoryAccess.Ber
