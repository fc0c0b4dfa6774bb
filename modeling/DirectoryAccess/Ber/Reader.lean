import DirectoryAccess.Ber.Element

/-!
# Reading elements in order

A reader stands at a place in some octets and may have opened sequences, of which
it keeps the ends. What lies between the place and the innermost end, its
`window`, is all that the next step can see, so an inner length never reaches
into what belongs to an outer sequence. Every step gives an answer and the reader
after it, a failing step too: what it has consumed or opened stays so.
-/

namespace DirectoryAccess.Ber

/-- The limits that a reader sets for what it is given. -/
structure Limits where
  /-- The greatest length of a value. -/
  elementSize : Nat
  /-- The greatest number of sequences open at a time. -/
  depth : Nat
  deriving DecidableEq, Repr

/-- Values of up to sixteen mebioctets, and up to 64 open sequences. -/
def Limits.default : Limits := ⟨16 * 1024 * 1024, 64⟩

/-- A place in some octets and the ends of the sequences that are open there. -/
structure Reader where
  /-- All octets, those already read included. -/
  input : Octets
  /-- The number of octets read so far. -/
  position : Nat
  /-- The ends of the open sequences, the innermost first. -/
  ends : List Nat
  /-- The limits in force. -/
  limits : Limits
  deriving DecidableEq, Repr

/-- A sequence that a reader has opened. -/
structure Opened where
  /-- The type octet of the sequence. -/
  tag : UInt8
  /-- The place behind its last octet. -/
  stop : Nat
  deriving DecidableEq, Repr

namespace Reader

/-- A reader at the front of some octets. -/
def ofOctets (input : Octets) (limits : Limits) : Reader := ⟨input, 0, [], limits⟩

/-- The end of the innermost open sequence, or of all octets. -/
def limit (r : Reader) : Nat := r.ends.headD r.input.length

/-- The number of octets left before the innermost end. -/
def remaining (r : Reader) : Nat := r.limit - r.position

/-- Whether octets are left before the innermost end. -/
def hasRemaining (r : Reader) : Bool := r.position < r.limit

/-- The octets left before the innermost end. -/
def window (r : Reader) : Octets := (r.input.take r.limit).drop r.position

/-- The type octet of the next element. -/
def peek? (r : Reader) : Option UInt8 := r.window.head?

/-- Whether a sequence has elements that are not read yet. -/
def hasMore (r : Reader) (opened : Opened) : Bool := r.position < opened.stop

end Reader

/-- A step of reading: an answer or a failure, and in both cases the reader after it. -/
abbrev Reading (α : Type) := ExceptT Failure (StateM Reader) α

namespace Reading

/-- What the reader shows of itself. -/
def view {α : Type} (f : Reader → α) : Reading α := fun r => (.ok (f r), r)

/-- An answer that does not depend on the reader. -/
def ofExcept {α : Type} (answer : Except Failure α) : Reading α := fun r => (answer, r)

/-- A failure that leaves the reader where it is. -/
def fail {α : Type} (fault : Fault) : Reading α := fun r => (.error fault, r)

/-- Makes a failure the cause of a decoding failure that says what could not be decoded. -/
def explain {α : Type} (message : String) (step : Reading α) : Reading α := fun r =>
  let (answer, r) := step r
  (DirectoryAccess.explain message answer, r)

/-- Reads the type and the length of the next element and stands in front of its value. -/
def header : Reading Header := fun r =>
  match Header.decode r.window with
  | .error failure => (.error failure, r)
  | .ok header =>
    if r.limits.elementSize < header.size then
      (.error (Fault.elementSize header.size r.limits.elementSize), r)
    else (.ok header, { r with position := r.position + header.width })

/-- Reads the next element. -/
def element : Reading Element := do
  let header ← header
  fun r =>
    (.ok ⟨header.tag, (r.input.drop r.position).take header.size⟩,
      { r with position := r.position + header.size })

/-- Reads the value of the next element. -/
def octets : Reading Octets := do
  return (← element).value

/-- Reads the value of the next element as a number of at most 64 bits. -/
def integer : Reading Int := do
  ofExcept (decodeInteger (← octets))

/-- Reads the value of the next element as a number of 32 bits. -/
def int32 : Reading Int32 := do
  ofExcept (toInt32 (← integer))

/-- Reads the value of the next element as a text. -/
def text : Reading String := do
  ofExcept (decodeText (← octets))

/-- Opens the next element as a sequence. -/
def openSequence : Reading Opened := do
  let r ← view id
  if r.limits.depth ≤ r.ends.length then fail (.depth r.limits.depth)
  let header ← header
  if !isConstructed header.tag then fail (.primitive header.tag)
  fun r =>
    let stop := r.position + header.size
    (.ok ⟨header.tag, stop⟩, { r with ends := stop :: r.ends })

/-- Closes a sequence, which must be the innermost open one and read to its end. -/
def closeSequence (opened : Opened) : Reading Unit := fun r =>
  if r.ends.head? ≠ some opened.stop then (.error Fault.notInnermost, r)
  else if r.position ≠ opened.stop then
    (.error (Fault.unread (opened.stop - r.position) opened.tag), r)
  else (.ok (), { r with ends := r.ends.tail })

end Reading

end DirectoryAccess.Ber
