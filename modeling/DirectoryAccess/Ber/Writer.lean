import DirectoryAccess.Ber.Element

/-!
# Writing elements in order

A writer appends elements to what it has written. A sequence can also be written
piece by piece: opening it writes the type alone and keeps the place where its
value starts, and closing it puts the length there, in front of all that was
written since.
-/

namespace DirectoryAccess.Ber

/-- Octets written so far and the sequences open among them. -/
structure Writer where
  /-- The octets written so far, without the lengths of the open sequences. -/
  output : Octets
  /-- The places where the values of the open sequences start, the innermost first. -/
  starts : List Nat
  deriving DecidableEq, Repr

namespace Writer

/-- A writer that has written nothing. -/
def empty : Writer := ⟨[], []⟩

/-- Appends an element. -/
def element (w : Writer) (element : Element) : Writer :=
  { w with output := w.output ++ element.encode }

/-- Opens a sequence of the given type. -/
def openSequence (w : Writer) (tag : UInt8) : Writer :=
  ⟨w.output ++ [tag], (w.output.length + 1) :: w.starts⟩

/-- Closes the innermost open sequence; nothing happens where none is open. -/
def closeSequence (w : Writer) : Writer :=
  match w.starts with
  | [] => w
  | start :: starts =>
    let length := Length.ofNat (w.output.length - start)
    ⟨w.output.take start ++ length.encode ++ w.output.drop start, starts⟩

end Writer

end DirectoryAccess.Ber
