import DirectoryAccess.Octets

/-!
# Insignificant spaces

Spaces count only as what separates words: a run of them is one space, and those
at the two ends of a value go. A part of a value has ends that are not ends of the
whole, and there one space stays. No other blank than the space is touched.
-/

namespace DirectoryAccess.Matching

/-- The place of a part in the value that it is sought in. -/
inductive Place
  | initial
  | any
  | final
  deriving DecidableEq, Repr

/-- At which ends of a text one space stays. -/
structure Edges where
  /-- Whether a space in front stays. -/
  leading : Bool
  /-- Whether a space behind stays. -/
  trailing : Bool
  deriving DecidableEq, Repr

/-- Both ends of a whole value lose their spaces. -/
def Edges.whole : Edges := ⟨false, false⟩

/-- The ends of a part that are not ends of the whole value keep one space. -/
def Edges.of : Place → Edges
  | .initial => ⟨false, true⟩
  | .any => ⟨true, true⟩
  | .final => ⟨true, false⟩

/-- Collapses spaces from some place on. What is done is held backwards, and `pending` says
whether spaces stand right in front. -/
def collapseFrom (edges : Edges) (done : List Char) (pending : Bool) : List Char → List Char
  | [] =>
    if pending && edges.trailing && (edges.leading || !done.isEmpty) then (' ' :: done).reverse
    else done.reverse
  | c :: rest =>
    if c = ' ' then collapseFrom edges done true rest
    else if pending && (edges.leading || !done.isEmpty) then
      collapseFrom edges (c :: ' ' :: done) false rest
    else collapseFrom edges (c :: done) false rest

/-- A text with each run of spaces made one space, and none at an end that keeps none. -/
def collapseSpaces (edges : Edges) (text : String) : String :=
  String.ofList (collapseFrom edges [] false text.toList)

end DirectoryAccess.Matching
