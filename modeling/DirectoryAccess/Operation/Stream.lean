import DirectoryAccess.Ber.Reader
import DirectoryAccess.Ber.Writer
import DirectoryAccess.Operation.Basic

/-!
# Operations in a stream

An operation can be written to a writer and read from a reader without an element
in between. Two kinds are written and read piece by piece, an extended request
and a request to delete an entry; all others go through their element.
-/

namespace DirectoryAccess

open Ber (Element Opened Reader Reading Writer)

namespace ExtendedRequest

/-- Writes a request, its parts one after the other. -/
def write (w : Writer) (request : ExtendedRequest) : Writer :=
  let w := (w.openSequence Kind.extendedRequest.tag).element (.text oidTag request.oid.text)
  let w := match request.value with
    | some value => w.element ⟨valueTag, value⟩
    | none => w
  w.closeSequence

/-- Reads a request, its parts one after the other. Where it fails, the request stays open. -/
def readParts : Reading ExtendedRequest := do
  let opened ← Reading.openSequence
  let oid ← Reading.explain "cannot decode the request OID" do
    let name ← Reading.text
    Reading.ofExcept (Oid.ofString name)
  let value ←
    if ← Reading.view (·.hasMore opened) then
      some <$> Reading.explain "cannot decode the request value" Reading.octets
    else pure none
  if ← Reading.view (·.hasMore opened) then
    throw (.malformed "extended request must have 1 or 2 elements, got more than 2")
  Reading.closeSequence opened
  return ⟨oid, value⟩

end ExtendedRequest

/-- An octet that may be missing, in words. -/
def showOctet? : Option UInt8 → String
  | some b => s!"Some({b})"
  | none => "None"

/-- Reads an operation that is read piece by piece, if its type octet is next. -/
def readPieces (kind : Kind) (pieces : Reading (Body kind)) : Reading (Body kind) := do
  let next ← Reading.view Reader.peek?
  if next = some kind.tag then Reading.explain s!"cannot decode {kind.name}" pieces
  else
    throw (.malformed s!"cannot decode {kind.name}: unexpected BER type {showOctet? next}")

/-- Reads what an operation of the given kind carries. -/
def readAs (kind : Kind) : Reading (Body kind) :=
  match kind with
  | .extendedRequest => readPieces .extendedRequest ExtendedRequest.readParts
  | .deleteRequest => readPieces .deleteRequest Reading.text
  | kind => do
    let element ← Reading.explain s!"cannot read {kind.name}" Reading.element
    Reading.ofExcept (decodeAs kind element)

namespace Operation

/-- Writes an operation. -/
def write (w : Writer) (op : Operation) : Writer :=
  match op with
  | ⟨.extendedRequest, request⟩ => ExtendedRequest.write w request
  | ⟨.deleteRequest, dn⟩ => w.element (.text Kind.deleteRequest.tag dn)
  | op => w.element op.encode

/-- Reads an operation of the kind that its type octet says. -/
def read : Reading Operation := do
  match ← Reading.view Reader.peek? with
  | none => throw (.malformed "no protocol operation to read")
  | some tag =>
    match Kind.ofTag? tag with
    | none => throw (unknownType tag)
    | some kind => Operation.mk kind <$> readAs kind

end Operation

end DirectoryAccess
