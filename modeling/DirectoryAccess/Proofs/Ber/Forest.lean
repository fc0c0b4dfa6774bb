import DirectoryAccess.Proofs.Ber.Writer

/-!
# What a writer has written when all its sequences are closed

Whoever holds a writer appends elements and opens and closes sequences, in any order and
to any depth. If every sequence that is opened is closed and no other one is, the calls
spell a forest, one tree an element that is appended or a sequence with what stands in it.
Closing a sequence puts its length into the middle of the output; still the calls do
nothing but append the octets of the forest, in which the length of each sequence is that
of the octets of its children (`run_of_wellNested`).
-/

namespace DirectoryAccess.Ber.Writer

/-- What can be appended to what a writer has written. -/
inductive Addition
  /-- A null. -/
  | null (tag : UInt8)
  /-- A truth value. -/
  | boolean (tag : UInt8) (b : Bool)
  /-- A number, an enumerated one too. -/
  | integer (tag : UInt8) (v : Int)
  /-- Octets. -/
  | octets (tag : UInt8) (value : Octets)
  /-- An element that is there already. -/
  | element (e : Element)
  deriving DecidableEq, Repr

/-- The element that is appended. -/
def Addition.toElement : Addition → Element
  | null tag => .null tag
  | boolean tag b => .boolean tag b
  | integer tag v => .integer tag v
  | octets tag value => ⟨tag, value⟩
  | element e => e

/-- A step that the holder of a writer can ask for. -/
inductive Call
  /-- Appends something. -/
  | add (addition : Addition)
  /-- Opens a sequence. -/
  | openSequence (tag : UInt8)
  /-- Closes the innermost open sequence. -/
  | closeSequence
  deriving DecidableEq, Repr

/-- The writer after a call. -/
def Call.step (w : Writer) : Call → Writer
  | add addition => w.element addition.toElement
  | openSequence tag => w.openSequence tag
  | closeSequence => w.closeSequence

/-- The writer after some calls. -/
def run (calls : List Call) (w : Writer) : Writer := calls.foldl Call.step w

/-- How many sequences are open after some calls if there were `depth` before, unless one is closed
where none is open. -/
def depthAfter (depth : Nat) : List Call → Option Nat
  | [] => some depth
  | .add _ :: calls => depthAfter depth calls
  | .openSequence _ :: calls => depthAfter (depth + 1) calls
  | .closeSequence :: calls =>
    match depth with
    | 0 => none
    | depth + 1 => depthAfter depth calls

/-- All that is opened by some calls is closed by them, and nothing else is. -/
def WellNested (calls : List Call) : Prop := depthAfter 0 calls = some 0

instance (calls : List Call) : Decidable (WellNested calls) :=
  inferInstanceAs (Decidable (depthAfter 0 calls = some 0))

/-! ## Forests -/

/-- Trees in order. A tree is something that is appended, or a sequence with a forest in it. -/
inductive Forest
  /-- No tree. -/
  | nil
  /-- Something that is appended, and the trees behind it. -/
  | add (addition : Addition) (rest : Forest)
  /-- A sequence of the given type with its children, and the trees behind it. -/
  | sequence (tag : UInt8) (children rest : Forest)
  deriving DecidableEq, Repr

namespace Forest

/-- The calls that spell a forest, from the left to the right. -/
def calls : Forest → List Call
  | nil => []
  | add addition rest => .add addition :: rest.calls
  | sequence tag children rest =>
    .openSequence tag :: (children.calls ++ .closeSequence :: rest.calls)

/-- The element of each tree. -/
def elements : Forest → List Element
  | nil => []
  | add addition rest => addition.toElement :: rest.elements
  | sequence tag children rest => .sequence tag children.elements :: rest.elements

/-- The octets of a forest. A sequence is its type, the length of the octets of its children, and
these octets. -/
def encode : Forest → Octets
  | nil => []
  | add addition rest => addition.toElement.encode ++ rest.encode
  | sequence tag children rest =>
    (tag :: ((Length.ofNat children.encode.length).encode ++ children.encode)) ++ rest.encode

/-- The octets of a forest are those of its elements. -/
theorem encode_eq_flatMap (forest : Forest) :
    forest.encode = forest.elements.flatMap Element.encode := by
  induction forest with
  | nil => rfl
  | add addition rest ih => rw [encode, elements, List.flatMap_cons, ih]
  | sequence tag children rest ihChildren ihRest =>
      rw [encode, elements, List.flatMap_cons, ihChildren, ihRest]
      rfl

/-- The calls of a forest append its octets, whatever was written before: the children of a node go
to the open sequence, which is closed behind them. -/
theorem run_calls (forest : Forest) (w : Writer) : run forest.calls w = w.append forest.encode := by
  induction forest generalizing w with
  | nil => rw [calls, encode, append, List.append_nil]; rfl
  | add addition rest ih =>
      change run rest.calls (w.append addition.toElement.encode) = _
      rw [ih, append_append, encode]
  | sequence tag children rest ihChildren ihRest =>
      have hsplit : run (sequence tag children rest).calls w =
          run rest.calls (run children.calls (w.openSequence tag)).closeSequence := by
        rw [calls, run, List.foldl_cons, List.foldl_append, List.foldl_cons]
        rfl
      rw [hsplit, ihChildren, closeSequence_append_openSequence, ihRest, append_append, encode]
      rfl

/-- The calls of forests with the end of a sequence in front of each but the first one. -/
def spell (forest : Forest) (outer : List Forest) : List Call :=
  forest.calls ++ outer.flatMap fun forest => .closeSequence :: forest.calls

/-- Calls that close all open sequences and what they open spell a forest in each of these, and one
behind them. -/
theorem exists_spell_of_depthAfter {calls : List Call} {depth : Nat}
    (h : depthAfter depth calls = some 0) :
    ∃ forest outer, outer.length = depth ∧ spell forest outer = calls := by
  induction calls generalizing depth with
  | nil =>
      obtain rfl := Option.some.inj h
      exact ⟨nil, [], rfl, rfl⟩
  | cons call calls ih =>
      cases call with
      | add addition =>
          obtain ⟨forest, outer, hlength, rfl⟩ := ih h
          exact ⟨add addition forest, outer, hlength, rfl⟩
      | openSequence tag =>
          obtain ⟨children, outer, hlength, rfl⟩ := ih h
          obtain ⟨rest, outer, rfl⟩ := List.exists_cons_of_length_eq_add_one hlength
          refine ⟨sequence tag children rest, outer, Nat.succ.inj hlength, ?_⟩
          simp only [spell, Forest.calls, List.flatMap_cons, List.cons_append, List.append_assoc]
      | closeSequence =>
          cases depth with
          | zero => cases h
          | succ depth =>
              obtain ⟨forest, outer, hlength, rfl⟩ := ih h
              exact ⟨nil, forest :: outer, congrArg Nat.succ hlength, rfl⟩

/-- Calls that close all that they open are followed by none, or by the end of a sequence that was
open before. -/
def Ends (calls : List Call) : Prop := ∀ call ∈ calls.head?, call = .closeSequence

/-- Calls that begin with the end of a sequence close one that was open before. -/
theorem ends_closeSequence (calls : List Call) : Ends (.closeSequence :: calls) := by
  rintro call ⟨⟩
  rfl

/-- The calls of a sequence and of what stands behind it. -/
theorem calls_sequence_append (tag : UInt8) (children rest : Forest) (behind : List Call) :
    (sequence tag children rest).calls ++ behind =
      .openSequence tag :: (children.calls ++ .closeSequence :: (rest.calls ++ behind)) := by
  rw [calls, List.cons_append, List.append_assoc, List.cons_append]

/-- Where a forest ends can be told from the calls, and so can the forest. -/
theorem calls_append_inj {forest other : Forest} {behind behind' : List Call}
    (hbehind : Ends behind) (hbehind' : Ends behind')
    (h : forest.calls ++ behind = other.calls ++ behind') :
    forest = other ∧ behind = behind' := by
  induction forest generalizing other behind behind' with
  | nil =>
      cases other with
      | nil => exact ⟨rfl, h⟩
      | add addition rest =>
          obtain rfl : behind = .add addition :: (rest.calls ++ behind') := h
          cases hbehind _ rfl
      | sequence tag children rest =>
          obtain rfl : behind = _ := h
          cases hbehind _ rfl
  | add addition rest ih =>
      cases other with
      | nil =>
          obtain rfl : _ = behind' := h
          cases hbehind' _ rfl
      | add addition' rest' =>
          obtain ⟨hcall, hrest⟩ := List.cons.inj h
          obtain rfl := Call.add.inj hcall
          obtain ⟨rfl, rfl⟩ := ih hbehind hbehind' hrest
          exact ⟨rfl, rfl⟩
      | sequence tag children rest' => cases (List.cons.inj h).1
  | sequence tag children rest ihChildren ihRest =>
      cases other with
      | nil =>
          obtain rfl : _ = behind' := h
          cases hbehind' _ rfl
      | add addition rest' => cases (List.cons.inj h).1
      | sequence tag' children' rest' =>
          rw [calls_sequence_append, calls_sequence_append] at h
          obtain ⟨hcall, hinside⟩ := List.cons.inj h
          obtain rfl := Call.openSequence.inj hcall
          obtain ⟨rfl, hclosed⟩ :=
            ihChildren (ends_closeSequence _) (ends_closeSequence _) hinside
          obtain ⟨rfl, rfl⟩ := ihRest hbehind hbehind' (List.cons.inj hclosed).2
          exact ⟨rfl, rfl⟩

/-- No two forests have the same calls. -/
theorem calls_injective : Function.Injective calls := by
  intro forest other h
  have hnil : Ends [] := nofun
  exact (calls_append_inj hnil hnil (congrArg (· ++ []) h)).1

end Forest

/-- **Sequences that are closed are written as a whole.** Calls that close what they open, and
nothing else, are those of exactly one forest. Whatever a writer has written before and whatever
sequences are open there, the calls append the octets of the forest to it and leave these sequences
open where they are; and the octets of the forest are those of its elements, in which a sequence is
the element made of its children. -/
theorem run_of_wellNested (calls : List Call) (h : WellNested calls) :
    ∃ forest : Forest, (∀ other : Forest, other.calls = calls ↔ other = forest) ∧
      forest.encode = forest.elements.flatMap Element.encode ∧
      ∀ w : Writer, (run calls w).output = w.output ++ forest.encode ∧
        (run calls w).starts = w.starts := by
  obtain ⟨forest, outer, hlength, hspell⟩ := Forest.exists_spell_of_depthAfter h
  obtain rfl := List.length_eq_zero_iff.mp hlength
  obtain rfl : forest.calls = calls := by
    rw [← hspell, Forest.spell, List.flatMap_nil, List.append_nil]
  refine ⟨forest, fun other => Forest.calls_injective.eq_iff, forest.encode_eq_flatMap, ?_⟩
  intro w
  rw [forest.run_calls w]
  exact ⟨rfl, rfl⟩

/-- A text of 200 octets in a sequence in a sequence, and a null behind it in the outer one. -/
def lengthyForest : Forest :=
  .sequence 0x30 (.sequence 0xA0 (.add (.octets Tag.octetString (List.replicate 200 0xAB)) .nil)
    (.add (.null Tag.null) .nil)) .nil

/-- Sequences with values of 203 and 208 octets are written behind octets that are there already, in
a sequence that is still open. -/
theorem run_of_wellNested_lengthyForest :
    WellNested lengthyForest.calls ∧
      (run lengthyForest.calls ⟨[0x30, 0x42], [1]⟩).output = [0x30, 0x42] ++
        ([0x30, 0x81, 0xD0, 0xA0, 0x81, 0xCB, 0x04, 0x81, 0xC8] ++ List.replicate 200 0xAB ++
          [0x05, 0x00]) ∧
      (run lengthyForest.calls ⟨[0x30, 0x42], [1]⟩).starts = [1] := by
  have hnested : WellNested lengthyForest.calls := rfl
  have hencode : lengthyForest.encode =
      [0x30, 0x81, 0xD0, 0xA0, 0x81, 0xCB, 0x04, 0x81, 0xC8] ++ List.replicate 200 0xAB ++
        [0x05, 0x00] := by
    decide +kernel
  obtain ⟨forest, hcalls, -, hrun⟩ := run_of_wellNested _ hnested
  obtain rfl := (hcalls lengthyForest).mp rfl
  rw [← hencode]
  exact ⟨hnested, hrun ⟨[0x30, 0x42], [1]⟩⟩

end DirectoryAccess.Ber.Writer
