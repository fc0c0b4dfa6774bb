import DirectoryAccess.Failure

/-!
# Object identifiers

Extended operations and controls are named by object identifiers. They travel as
text, and servers put descriptors where the dotted numbers belong, so every text
but the empty one is accepted.
-/

namespace DirectoryAccess

/-- The name of an extended operation or of a control, which is never empty. -/
structure Oid where
  /-- The name as it is sent. -/
  text : String
  /-- The name is not empty. -/
  text_ne_empty : text ≠ ""
  deriving DecidableEq, Repr

namespace Oid

/-- The identifier with the given text, unless that is empty. -/
def ofString (text : String) : Except Failure Oid :=
  if h : text = "" then .error (.invalidData "OID must not be empty") else .ok ⟨text, h⟩

/-- Whether a text is a decimal number without leading zeros. -/
def isNumber (digits : List Char) : Bool :=
  match digits with
  | [] => false
  | ['0'] => true
  | '0' :: _ => false
  | _ => digits.all Char.isDigit

/-- Whether the identifier is two or more numbers with dots between them. -/
def isNumeric (oid : Oid) : Bool :=
  let parts := oid.text.toList.splitOn '.'
  2 ≤ parts.length && parts.all isNumber

end Oid

end DirectoryAccess
