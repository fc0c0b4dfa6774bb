import DirectoryAccess.ResultCode

/-!
# Failures

What can go wrong, and how it is put into words. A decoding failure that was
caused by another one keeps it, so that a reader can follow the chain from the
operation that could not be decoded to the octet that was wrong (`causes`). Each
failure has the result code that a server would answer it with.
-/

namespace DirectoryAccess

/-- Why a value could not be read, built or accepted. -/
inductive Failure
  /-- The structure that was read is not the one that belongs there. -/
  | malformed (message : String)
  /-- A part could not be decoded, because of another failure. -/
  | explained (message : String) (cause : Failure)
  /-- The basic encoding rules are broken. -/
  | ber (message : String)
  /-- A value that may not be built. -/
  | invalidData (message : String)
  /-- A value without the syntax of its matching rule. -/
  | invalidSyntax (message : String)
  /-- An interceptor rejected the operation. -/
  | rejected (code : ResultCode) (message : String)
  deriving DecidableEq, Repr, Inhabited

namespace Failure

/-- The wording of a failure, its kind first. -/
def text : Failure → String
  | malformed message => s!"Decoding error: {message}"
  | explained message _ => s!"Decoding error: {message}"
  | ber message => s!"ASN.1 decoding error: {message}"
  | invalidData message => s!"Invalid data: {message}"
  | invalidSyntax message => s!"Invalid attribute syntax: {message}"
  | rejected code message => s!"Operation rejected ({code.text}): {message}"

/-- The failures that led to this one, the nearest first. -/
def causes : Failure → List Failure
  | explained _ cause => cause :: cause.causes
  | _ => []

/-- The last failure of the chain, which has no cause of its own. -/
def rootCause : Failure → Failure
  | explained _ cause => cause.rootCause
  | failure => failure

/-- The result code that a server reports for a failure. -/
def resultCode : Failure → ResultCode
  | malformed _ | explained _ _ | ber _ => .decodingError
  | invalidData _ => .parameterError
  | invalidSyntax _ => .invalidAttributeSyntax
  | rejected code _ => code

/-- Whether something received could not be decoded, at any level. -/
def isDecoding : Failure → Bool
  | malformed _ | explained _ _ | ber _ => true
  | _ => false

/-- A list of the wrong length, where `allowed` says which lengths would do. -/
def elementCount (place allowed : String) (count : Nat) : Failure :=
  .malformed s!"{place} must have {allowed} elements, got {count}"

end Failure

/-- Makes a failure the cause of a decoding failure that says what could not be decoded. -/
def explain {α : Type} (message : String) : Except Failure α → Except Failure α
  | .ok a => .ok a
  | .error cause => .error (.explained message cause)

@[simp] theorem explain_ok {α : Type} (message : String) (a : α) :
    explain message (.ok a) = .ok a := rfl

@[simp] theorem explain_error {α : Type} (message : String) (cause : Failure) :
    explain message (.error cause : Except Failure α) = .error (.explained message cause) := rfl

/-- To say what could not be decoded changes no value. -/
theorem explain_eq_ok_iff {α : Type} {message : String} {r : Except Failure α} {a : α} :
    explain message r = .ok a ↔ r = .ok a := by
  cases r with
  | ok b => exact Iff.rfl
  | error cause => simp only [explain_error, reduceCtorEq]

end DirectoryAccess
