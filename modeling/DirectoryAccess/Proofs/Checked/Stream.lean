import DirectoryAccess.Proofs.Ber.Run
import DirectoryAccess.Proofs.Checked.Message
import DirectoryAccess.Proofs.Message.Stream

/-!
# Reading from a stream with every bound checked

What reads operations and messages from a stream asks a reader for one step after
the other and is otherwise a decoder of elements. With all bounds checked it asks for
the checked steps and uses the checked decoders. That such a reading guards a plain
one (`Guards`) says that on a well-nested reader it does the same, and leaves a
well-nested reader behind. It does so if all that it is put together from does.
-/

namespace DirectoryAccess

open Ber (Call Element Opened Reader Reading)

/-- A step of reading that has no outcome at all where a bound does not hold. -/
abbrev CheckedReading (α : Type) := ExceptT Failure (StateT Reader Option) α

namespace CheckedReading

variable {α β : Type}

/-- Asks the reader for a step. -/
def ask (call : Call) : CheckedReading call.Answer := call.checked

/-- An answer that does not depend on the reader. -/
def ofChecking (checked : Checking α) : CheckedReading α := fun r =>
  Option.map (fun answer => (answer, r)) checked

/-- A failure that leaves the reader where it is. -/
def fail (failure : Failure) : CheckedReading α := ofChecking (Checking.fail failure)

/-- Makes a failure the cause of a decoding failure that says what could not be decoded. -/
def explain (message : String) (step : CheckedReading α) : CheckedReading α := fun r =>
  Option.map (fun (answer, s) => (DirectoryAccess.explain message answer, s)) (step r)

/-- Reads a part that a sequence may have, or takes the given one, and goes on with it. -/
def ifMore (opened : Opened) (step : CheckedReading α) (default : α)
    (next : α → CheckedReading β) : CheckedReading β :=
  ask (.hasMore opened) >>= fun more => if more then step >>= next else pure default >>= next

end CheckedReading

/-- A reading does the same with its bounds checked, on every well-nested reader, which stays well
nested. -/
structure Guards {α : Type} (checked : CheckedReading α) (step : Reading α) : Prop where
  /-- No bound is violated. -/
  checked_eq : ∀ {r : Reader}, r.WellNested → checked r = some (step r)
  /-- The reader stays well nested, also where the reading fails. -/
  wellNested : ∀ {r : Reader}, r.WellNested → (step r).2.WellNested

namespace Guards

variable {α β : Type} {checked : CheckedReading α} {step : Reading α}

/-- A step of a reader is guarded by its checked form. -/
theorem of_call (call : Call) : Guards (CheckedReading.ask call) call.step where
  checked_eq h := call.checked_eq h
  wellNested {r} h := (call.step_moves r).wellNested h

/-- An answer that does not depend on the reader is guarded by the checked one. -/
theorem of_eq {checked : Checking α} {answer : Except Failure α}
    (h : checked = Checking.ofExcept answer) :
    Guards (CheckedReading.ofChecking checked) (Reading.ofExcept answer) where
  checked_eq _ := by
    rw [h]
    rfl
  wellNested hr := hr

/-- A value is guarded, since there is nothing to check. -/
theorem pure (a : α) : Guards (Pure.pure a : CheckedReading α) (Pure.pure a) where
  checked_eq _ := rfl
  wellNested hr := hr

/-- A failure is guarded, since it leaves the reader where it is. -/
theorem fail (failure : Failure) :
    Guards (CheckedReading.fail failure : CheckedReading α) (throw failure) where
  checked_eq _ := rfl
  wellNested hr := hr

/-- An explanation changes nothing about the bounds. -/
theorem explain (message : String) (h : Guards checked step) :
    Guards (CheckedReading.explain message checked) (Reading.explain message step) where
  checked_eq hr := by
    rw [CheckedReading.explain, h.checked_eq hr]
    rfl
  wellNested hr := h.wellNested hr

/-- A reading that goes on from another one is guarded where both are, because the first leaves a
reader that is well nested. -/
theorem bind {checkedNext : α → CheckedReading β} {next : α → Reading β} (h : Guards checked step)
    (hnext : ∀ a, Guards (checkedNext a) (next a)) :
    Guards (checked >>= checkedNext) (step >>= next) := by
  have hboth {r : Reader} (hr : r.WellNested) :
      (checked >>= checkedNext) r = some ((step >>= next) r) ∧
        ((step >>= next) r).2.WellNested := by
    have hchecked := h.checked_eq hr
    have hleft := h.wellNested hr
    change ((checked r).bind fun (answer, s) => ExceptT.bindCont checkedNext answer s) = _ ∧ _
    rcases hstep : step r with ⟨answer, s⟩
    rw [hstep] at hchecked hleft
    rw [hchecked, Option.bind_some]
    cases answer with
    | ok a =>
        rw [Reading.bind_of_ok hstep]
        exact ⟨(hnext a).checked_eq hleft, (hnext a).wellNested hleft⟩
    | error failure =>
        rw [Reading.bind_of_error hstep]
        exact ⟨rfl, hleft⟩
  exact ⟨fun hr => (hboth hr).1, fun hr => (hboth hr).2⟩

/-- A change of the value that was read changes nothing about the bounds. -/
theorem map (f : α → β) (h : Guards checked step) : Guards (f <$> checked) (f <$> step) := by
  rw [← bind_pure_comp, ← bind_pure_comp]
  exact h.bind fun a => pure (f a)

/-- A part that may be missing is guarded if it is and what follows it is. -/
theorem ifMore (opened : Opened) {default : α} {checkedNext : α → CheckedReading β}
    {next : α → Reading β} (h : Guards checked step)
    (hnext : ∀ a, Guards (checkedNext a) (next a)) :
    Guards (CheckedReading.ifMore opened checked default checkedNext)
      (Reading.ifMore opened step default next) := by
  refine (of_call (.hasMore opened)).bind fun more => ?_
  cases more with
  | true => exact h.bind hnext
  | false => exact (pure default).bind hnext

end Guards

/-! ## Operations -/

namespace ExtendedRequest

/-- Reads the name of the operation. -/
def readOidChecked : CheckedReading Oid :=
  CheckedReading.explain "cannot decode the request OID" do
    let name ← CheckedReading.ask .text
    CheckedReading.ofChecking (Checking.ofExcept (Oid.ofString name))

/-- Reads the value of the operation. -/
def readValueChecked : CheckedReading (Option Octets) :=
  some <$> CheckedReading.explain "cannot decode the request value" (CheckedReading.ask .octets)

/-- Closes a request behind its parts. -/
def readEndChecked (opened : Opened) (request : ExtendedRequest) :
    CheckedReading ExtendedRequest := do
  if ← CheckedReading.ask (.hasMore opened) then
    CheckedReading.fail (.malformed "extended request must have 1 or 2 elements, got more than 2")
  else
    CheckedReading.ask (.closeSequence opened)
    return request

/-- Reads a request, its parts one after the other. -/
def readPartsChecked : CheckedReading ExtendedRequest := do
  let opened ← CheckedReading.ask .openSequence
  let oid ← readOidChecked
  CheckedReading.ifMore opened readValueChecked none fun value =>
    readEndChecked opened ⟨oid, value⟩

/-- The end of an extended request is read with all bounds checked. -/
theorem guards_readEnd (opened : Opened) (request : ExtendedRequest) :
    Guards (readEndChecked opened request) (readEnd opened request) := by
  refine (Guards.of_call (.hasMore opened)).bind fun more => ?_
  cases more with
  | true => exact .fail _
  | false => exact (Guards.of_call (.closeSequence opened)).bind fun _ => .pure request

/-- An extended request is read part by part with all bounds checked. -/
theorem guards_readParts : Guards readPartsChecked readParts := by
  rw [readParts_eq]
  refine (Guards.of_call .openSequence).bind fun opened => ?_
  have hoid : Guards readOidChecked readOid :=
    .explain _ ((Guards.of_call .text).bind fun name => .of_eq rfl)
  have hvalue : Guards readValueChecked readValue :=
    .map some (.explain _ (.of_call .octets))
  exact hoid.bind fun oid => .ifMore opened hvalue fun value => guards_readEnd opened ⟨oid, value⟩

end ExtendedRequest

/-- Reads an operation that is read piece by piece, if its type octet is next. -/
def readPiecesChecked (kind : Kind) (pieces : CheckedReading (Body kind)) :
    CheckedReading (Body kind) := do
  let next ← CheckedReading.ask .peek
  if next = some kind.tag then CheckedReading.explain s!"cannot decode {kind.name}" pieces
  else
    CheckedReading.fail
      (.malformed s!"cannot decode {kind.name}: unexpected BER type {showOctet? next}")

/-- An operation that is read in pieces has its bounds checked if its pieces do. -/
theorem guards_readPieces {kind : Kind} {checked : CheckedReading (Body kind)}
    {pieces : Reading (Body kind)} (h : Guards checked pieces) :
    Guards (readPiecesChecked kind checked) (readPieces kind pieces) := by
  refine (Guards.of_call .peek).bind fun next => ?_
  split
  · exact h.explain _
  · exact .fail _

/-- Reads an operation through its element. -/
def readWholeChecked (kind : Kind) : CheckedReading (Body kind) := do
  let element ← CheckedReading.explain s!"cannot read {kind.name}" (CheckedReading.ask .element)
  CheckedReading.ofChecking (decodeAsChecked kind element)

/-- Reads what an operation of the given kind carries. -/
def readAsChecked (kind : Kind) : CheckedReading (Body kind) :=
  match kind with
  | .extendedRequest => readPiecesChecked .extendedRequest ExtendedRequest.readPartsChecked
  | .deleteRequest => readPiecesChecked .deleteRequest (CheckedReading.ask .text)
  | kind => readWholeChecked kind

/-- An operation that is read as a whole has its bounds checked. -/
theorem guards_readWhole (kind : Kind) : Guards (readWholeChecked kind) (readWhole kind) :=
  ((Guards.of_call .element).explain _).bind fun e => .of_eq (decodeAsChecked_eq kind e)

/-- An operation of a known kind is read from a stream with all bounds checked. -/
theorem guards_readAs (kind : Kind) : Guards (readAsChecked kind) (readAs kind) := by
  cases kind with
  | extendedRequest => exact guards_readPieces ExtendedRequest.guards_readParts
  | deleteRequest => exact guards_readPieces (.of_call .text)
  | _ => exact guards_readWhole _

namespace Operation

/-- Reads an operation of the kind that its type octet says. -/
def readChecked : CheckedReading Operation := do
  match ← CheckedReading.ask .peek with
  | none => CheckedReading.fail (.malformed "no protocol operation to read")
  | some tag =>
    match Kind.ofTag? tag with
    | none => CheckedReading.fail (unknownType tag)
    | some kind => Operation.mk kind <$> readAsChecked kind

/-- An operation is read from a stream with all bounds checked. -/
theorem guards_read : Guards readChecked read := by
  refine (Guards.of_call .peek).bind fun next => ?_
  cases next with
  | none => exact .fail _
  | some tag =>
      cases hkind : Kind.ofTag? tag with
      | none =>
          simp only [hkind]
          exact .fail _
      | some kind =>
          simp only [hkind]
          exact (guards_readAs kind).map _

end Operation

/-! ## Messages -/

namespace Message

/-- Reads the number of a message. -/
def readIdChecked : CheckedReading Int32 := do
  let id ← CheckedReading.explain "cannot decode the message ID" (CheckedReading.ask .int32)
  CheckedReading.ofChecking (Checking.ofExcept (checkId id))

/-- Reads the operation of a message. -/
def readOpChecked (id : Int32) : CheckedReading Operation :=
  CheckedReading.explain s!"cannot decode the operation of message {id}" Operation.readChecked

/-- Reads the controls of a message. -/
def readControlsChecked (id : Int32) : CheckedReading (List Control) := do
  let element ← CheckedReading.explain "cannot read the message controls"
    (CheckedReading.ask .element)
  CheckedReading.ofChecking (decodeControlsChecked id element)

/-- Closes a message behind its parts. -/
def readEndChecked (opened : Opened) (message : Message) : CheckedReading Message := do
  CheckedReading.explain s!"cannot close message {message.id}"
    (CheckedReading.ask (.closeSequence opened))
  return message

/-- Reads a message, its parts one after the other. -/
def readChecked : CheckedReading Message := do
  let opened ← CheckedReading.explain "cannot read the LDAP message sequence"
    (CheckedReading.ask .openSequence)
  let id ← readIdChecked
  let op ← readOpChecked id
  CheckedReading.ifMore opened (readControlsChecked id) [] fun controls =>
    readEndChecked opened ⟨id, op, controls⟩

/-- A message is read from a stream with all bounds checked. -/
theorem guards_read : Guards readChecked read := by
  rw [read_eq]
  refine ((Guards.of_call .openSequence).explain _).bind fun opened => ?_
  have hid : Guards readIdChecked readId :=
    ((Guards.of_call .int32).explain _).bind fun id => .of_eq rfl
  refine hid.bind fun id => ?_
  refine (Operation.guards_read.explain _).bind fun op => ?_
  have hcontrols : Guards (readControlsChecked id) (readControls id) :=
    ((Guards.of_call .element).explain _).bind fun e => .of_eq (decodeControlsChecked_eq id e)
  refine hcontrols.ifMore opened fun controls => ?_
  exact ((Guards.of_call (.closeSequence opened)).explain _).bind fun _ => .pure _

end Message

end DirectoryAccess
