/-!
# Result codes

Every response carries a result code, a signed 32-bit number. The set of codes is
open: any number may stand there, and the well-known ones also have a name.
-/

namespace DirectoryAccess

/-- The outcome of an operation as a number. -/
structure ResultCode where
  /-- The number that is sent. -/
  value : Int32
  deriving DecidableEq, Repr

namespace ResultCode

/-- The well-known codes and their names. -/
def known : List (Int32 × String) :=
  [(0, "success"), (1, "operations error"), (2, "protocol error"), (3, "time limit exceeded"),
    (4, "size limit exceeded"), (5, "compare false"), (6, "compare true"),
    (7, "auth method not supported"), (8, "stronger auth required"), (10, "referral"),
    (11, "admin limit exceeded"), (12, "unavailable critical extension"),
    (13, "confidentiality required"), (14, "SASL bind in progress"), (16, "no such attribute"),
    (17, "undefined attribute type"), (18, "inappropriate matching"), (19, "constraint violation"),
    (20, "attribute or value exists"), (21, "invalid attribute syntax"), (32, "no such object"),
    (33, "alias problem"), (34, "invalid DN syntax"), (36, "alias dereferencing problem"),
    (48, "inappropriate authentication"), (49, "invalid credentials"),
    (50, "insufficient access rights"), (51, "busy"), (52, "unavailable"),
    (53, "unwilling to perform"), (54, "loop detected"), (64, "naming violation"),
    (65, "object class violation"), (66, "not allowed on non-leaf"), (67, "not allowed on RDN"),
    (68, "entry already exists"), (69, "object class mods prohibited"),
    (71, "affects multiple DSAs"), (80, "other"), (81, "server down"), (82, "local error"),
    (83, "encoding error"), (84, "decoding error"), (85, "timeout"), (86, "auth unknown"),
    (87, "filter error"), (88, "user canceled"), (89, "parameter error"), (90, "no memory"),
    (91, "connect error"), (92, "not supported")]

/-- The name of a well-known code. -/
def name? (code : ResultCode) : Option String :=
  known.lookup code.value

/-- The number, with the name behind it where there is one. -/
def text (code : ResultCode) : String :=
  match code.name? with
  | some name => s!"{code.value} ({name})"
  | none => s!"{code.value}"

/-- An attribute value does not have the syntax that is asked of it. -/
def invalidAttributeSyntax : ResultCode := ⟨21⟩

/-- What was received could not be decoded. -/
def decodingError : ResultCode := ⟨84⟩

/-- A parameter has a value that is not allowed. -/
def parameterError : ResultCode := ⟨89⟩

end ResultCode

end DirectoryAccess
