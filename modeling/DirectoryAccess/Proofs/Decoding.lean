import DirectoryAccess.Proofs.Answer
import DirectoryAccess.Proofs.Message.Stream
import DirectoryAccess.Transaction.End

/-!
# What decoders fail with

The rules that elements are made by, the syntax of names and the rules for building
filters have failures of their own. A decoder never passes such a failure on: it makes
it the cause of one that says which structure could not be decoded. So whatever it is
given, it fails with a decoding failure only (`Failure.OfDecoder`), and the result
code is the one for that. A decoder has this from what it is put together from, and
from each explanation at once.
-/

namespace DirectoryAccess

open Ber (Element Opened Reader Reading)

/-- A failure of a decoder: a structure is wrong, or could not be decoded for the given cause. -/
inductive Failure.OfDecoder : Failure → Prop
  /-- The structure is not the one that belongs there. -/
  | malformed (message : String) : OfDecoder (.malformed message)
  /-- The structure could not be decoded, for whatever cause. -/
  | explained (message : String) (cause : Failure) : OfDecoder (.explained message cause)

/-- The result code of a decoder's failure is that of a decoding error. -/
theorem Failure.OfDecoder.resultCode_eq {failure : Failure} (h : failure.OfDecoder) :
    failure.resultCode = .decodingError := by
  cases h <;> rfl

/-- An answer that is no other failure than one of a decoder. -/
def Decodes {α : Type} (answer : Except Failure α) : Prop :=
  ∀ failure, answer = .error failure → failure.OfDecoder

namespace Decodes

variable {α β σ : Type}

/-- A value is no failure. -/
theorem ok (a : α) : Decodes (.ok a) := nofun

/-- What is malformed is a decoder's failure. -/
theorem malformed (message : String) :
    Decodes (.error (.malformed message) : Except Failure α) := by
  rintro failure ⟨⟩
  exact .malformed message

/-- An explained answer is a decoder's, whatever failure it explains. -/
theorem explain (message : String) (answer : Except Failure α) :
    Decodes (DirectoryAccess.explain message answer) := by
  intro failure h
  cases answer with
  | ok a => cases h
  | error cause =>
      cases h
      exact .explained message cause

/-- What decodes may be followed by what does. -/
theorem bind {answer : Except Failure α} {next : α → Except Failure β} (h : Decodes answer)
    (hnext : ∀ a, Decodes (next a)) : Decodes (answer >>= next) := by
  intro failure hfailure
  cases answer with
  | ok a => exact hnext a failure hfailure
  | error cause =>
      cases hfailure
      exact h failure rfl

/-- What decodes still does with its value changed. -/
theorem map (f : α → β) {answer : Except Failure α} (h : Decodes answer) :
    Decodes (answer.map f) := by
  intro failure hfailure
  cases answer with
  | ok a => cases hfailure
  | error cause =>
      cases hfailure
      exact h failure rfl

/-- Members of a list are decoded one by one. -/
theorem mapM {read : α → Except Failure β} (h : ∀ a, Decodes (read a)) (xs : List α) :
    Decodes (xs.mapM read) := by
  induction xs with
  | nil => exact .ok []
  | cons x xs ih =>
      rw [List.mapM_cons]
      exact (h x).bind fun y => ih.bind fun ys => .ok (y :: ys)

/-- Members of a list are taken in one by one. -/
theorem foldlM {step : σ → α → Except Failure σ} (h : ∀ s a, Decodes (step s a)) (xs : List α)
    (s : σ) : Decodes (xs.foldlM step s) := by
  induction xs generalizing s with
  | nil => exact .ok s
  | cons x xs ih =>
      rw [List.foldlM_cons]
      exact (h s x).bind ih

end Decodes

/-! ## Parts of messages -/

/-- An attribute is decoded, or could not be for a reason that is explained. -/
theorem Attribute.decode_decodes (e : Element) : Decodes (decode e) := by
  refine (Decodes.explain _ _).bind fun parts => ?_
  split
  · exact (Decodes.explain _ _).bind fun name => (Decodes.explain _ _).bind fun values => .ok _
  · exact .malformed _

/-- A modification is decoded, or could not be for a reason that is explained. -/
theorem Modification.decode_decodes (e : Element) : Decodes (decode e) := by
  refine (Decodes.explain _ _).bind fun parts => ?_
  split
  · exact (Decodes.explain _ _).bind fun change =>
      (Attribute.decode_decodes _).bind fun target => .ok _
  · exact .malformed _

namespace Control

/-- The parts behind a name are taken in one after the other. -/
theorem withParts_decodes (parts : List Element) (control : Control) :
    Decodes (control.withParts parts) := by
  induction parts generalizing control with
  | nil => exact .ok control
  | cons part parts ih =>
      rw [withParts]
      split
      · exact (Decodes.explain _ _).bind fun critical => ih _
      split
      · exact ih _
      · exact .malformed _

/-- A control is decoded, with its identifier and its value explained. -/
theorem decode_decodes (e : Element) : Decodes (decode e) := by
  refine (Decodes.explain _ _).bind fun parts => ?_
  rcases parts with _ | ⟨name, rest⟩
  · exact .malformed _
  by_cases hcount : 3 < (name :: rest).length
  · simp only [hcount, if_true]
    exact .malformed _
  · simp only [hcount, if_false]
    exact (Decodes.explain _ _).bind fun oid => withParts_decodes rest _

/-- A list of controls is decoded member by member. -/
theorem decodeList_decodes (e : Element) : Decodes (decodeList e) :=
  (Decodes.explain _ _).bind fun parts => .mapM (fun _ => .explain _ _) parts.zipIdx

end Control

namespace Outcome

/-- The referrals of an outcome are decoded one by one. -/
theorem decodeReferrals_decodes (elements : List Element) :
    Decodes (decodeReferrals elements) := by
  cases elements with
  | nil => exact .ok _
  | cons element rest =>
      rw [decodeReferrals]
      split
      · exact (Decodes.explain _ _).bind fun referrals => .ok _
      · exact .ok _

/-- An outcome is decoded off the first parts of a response. -/
theorem decode_decodes (elements : List Element) : Decodes (decode elements) := by
  rw [decode.eq_def]
  split
  · refine (Decodes.explain _ _).bind fun code => ?_
    refine (Decodes.explain _ _).bind fun matchedDn => ?_
    refine (Decodes.explain _ _).bind fun diagnostic => ?_
    exact (decodeReferrals_decodes _).bind fun found => .ok _
  · exact .malformed _

end Outcome

/-! ## Filters -/

/-- A part of a substring assertion is taken, or is not one. -/
theorem SubstringPattern.withPart_decodes (pattern : SubstringPattern) (part : Element) :
    Decodes (pattern.withPart part) := by
  rw [withPart]
  split
  · exact .malformed _
  split
  · exact .ok _
  split
  · exact .ok _
  split
  · exact .ok _
  · exact .malformed _

/-- A part of an extensible assertion is taken, or is not one. -/
theorem ExtensibleMatch.withPart_decodes (parts : Parts) (part : Element) :
    Decodes (parts.withPart part) := by
  rw [Parts.withPart]
  split
  · exact (Decodes.explain _ _).bind fun rule => .ok _
  split
  · exact (Decodes.explain _ _).bind fun description => .ok _
  split
  · exact .ok _
  split
  · exact (Decodes.explain _ _).bind fun dnAttributes => .ok _
  · exact .malformed _

namespace Filter

/-- An assertion about a value is decoded, or could not be for a reason that is explained. -/
theorem decodeAssertion_decodes (e : Element) : Decodes (decodeAssertion e) := by
  refine (Decodes.explain _ _).bind fun parts => ?_
  split
  · exact (Decodes.explain _ _).bind fun description => .ok _
  · exact .malformed _

/-- A substring assertion is decoded; that it has no part is explained. -/
theorem decodeSubstrings_decodes (e : Element) : Decodes (decodeSubstrings e) := by
  refine (Decodes.explain _ _).bind fun parts => ?_
  split
  · refine (Decodes.explain _ _).bind fun description => ?_
    refine (Decodes.explain _ _).bind fun components => ?_
    refine (Decodes.foldlM SubstringPattern.withPart_decodes components _).bind fun pattern => ?_
    exact .explain _ _
  · exact .malformed _

/-- An extensible assertion is decoded; that it names neither a rule nor an attribute is
explained. -/
theorem decodeExtensible_decodes (e : Element) : Decodes (decodeExtensible e) := by
  refine (Decodes.explain _ _).bind fun elements => ?_
  refine (Decodes.foldlM ExtensibleMatch.withPart_decodes elements _).bind fun parts => ?_
  split
  · exact .malformed _
  · exact .explain _ _

/-- A filter is decoded at whatever depth it stands, or is too deep. -/
theorem decodeNested_decodes (levels : Nat) (e : Element) : Decodes (decodeNested levels e) := by
  induction levels generalizing e with
  | zero => exact .malformed _
  | succ levels ih =>
      rw [decodeNested]
      split
      · exact (Decodes.explain _ _).bind fun parts => (Decodes.mapM ih parts).bind fun _ => .ok _
      split
      · exact (Decodes.explain _ _).bind fun parts => (Decodes.mapM ih parts).bind fun _ => .ok _
      split
      · exact (Decodes.explain _ _).bind fun inner => (ih inner).bind fun _ => .ok _
      split
      · exact decodeSubstrings_decodes e
      split
      · exact (Decodes.explain _ _).bind fun description => .ok _
      split
      · exact decodeExtensible_decodes e
      split
      · exact (decodeAssertion_decodes e).bind fun assertion => .ok _
      · exact .malformed _

/-- A filter is decoded, or could not be for a decoder's reason. -/
theorem decode_decodes (e : Element) : Decodes (decode e) := decodeNested_decodes (maxDepth + 1) e

end Filter

/-! ## Operations and messages -/

/-- Whatever goes wrong in an operation is explained by the kind of the operation. -/
theorem decodeAs_decodes (kind : Kind) (e : Element) : Decodes (decodeAs kind e) := by
  rw [decodeAs]
  split
  · exact .explain _ _
  · exact .malformed _

namespace Operation

/-- An operation is decoded as the kind that its type stands for, or that is unknown. -/
theorem decode_decodes (e : Element) : Decodes (decode e) := by
  rw [decode]
  split
  · exact .malformed _
  · exact (decodeAs_decodes _ e).map _

/-- Octets are decoded as an operation, or are no element. -/
theorem ofOctets_decodes (octets : Octets) : Decodes (ofOctets octets) :=
  (Decodes.explain _ _).bind decode_decodes

end Operation

namespace Message

/-- The number of a message is one, or is negative and malformed. -/
theorem checkId_decodes (id : Int32) : Decodes (checkId id) := by
  rw [checkId]
  split
  · exact .malformed _
  · exact .ok id

/-- The controls of a message are decoded with an explanation that names the message. -/
theorem decodeControls_decodes (id : Int32) (e : Element) : Decodes (decodeControls id e) := by
  rw [decodeControls]
  split
  · exact Control.decodeList_decodes e
  · exact .malformed _

/-- A message is decoded off its two or three parts. -/
theorem decodeParts_decodes (id op : Element) (controls? : Option Element) :
    Decodes (decodeParts id op controls?) := by
  refine ((Decodes.explain _ _).bind checkId_decodes).bind fun id => ?_
  refine (Decodes.explain _ _).bind fun op => ?_
  cases controls? with
  | none => exact .ok _
  | some controls => exact (decodeControls_decodes id controls).bind fun controls => .ok _

/-- A message is decoded, or has too few or too many parts. -/
theorem decode_decodes (e : Element) : Decodes (decode e) := by
  refine (Decodes.explain _ _).bind fun parts => ?_
  split
  · exact decodeParts_decodes _ _ none
  · exact decodeParts_decodes _ _ (some _)
  · exact .malformed _

/-- Octets are decoded as a message, or are no element. -/
theorem ofOctets_decodes (octets : Octets) : Decodes (ofOctets octets) :=
  (Decodes.explain _ _).bind decode_decodes

end Message

/-! ## Readings from a stream -/

/-- A reading that answers every reader with no other failure than one of a decoder. -/
def Ber.Reading.Decodes {α : Type} (step : Reading α) : Prop :=
  ∀ r : Reader, DirectoryAccess.Decodes (step r).1

namespace Ber.Reading.Decodes

variable {α β : Type} {step : Reading α}

/-- An answer that does not depend on the reader decodes if it does by itself. -/
theorem of_decodes {answer : Except Failure α} (h : DirectoryAccess.Decodes answer) :
    Reading.Decodes (Reading.ofExcept answer) := fun _ => h

/-- A value is no failure on any reader. -/
theorem pure (a : α) : Reading.Decodes (Pure.pure a) := fun _ => .ok a

/-- What is malformed is a decoder's failure on any reader. -/
theorem malformed (message : String) : Reading.Decodes (throw (.malformed message) : Reading α) :=
  fun _ => .malformed message

/-- To look at a reader does not fail. -/
theorem view (look : Reader → α) : Reading.Decodes (Reading.view look) := fun r => .ok (look r)

/-- An explained reading fails as decoders do, whatever the reader fails with. -/
theorem explain (message : String) (step : Reading α) :
    Reading.Decodes (Reading.explain message step) :=
  fun r => .explain message (step r).1

/-- A reading that decodes may be followed by one that does. -/
theorem bind {next : α → Reading β} (h : Reading.Decodes step)
    (hnext : ∀ a, Reading.Decodes (next a)) : Reading.Decodes (step >>= next) := by
  intro r
  have hfirst := h r
  rcases hstep : step r with ⟨answer, s⟩
  rw [hstep] at hfirst
  cases answer with
  | ok a =>
      rw [Reading.bind_of_ok hstep]
      exact hnext a s
  | error failure =>
      rw [Reading.bind_of_error hstep]
      intro cause hcause
      cases hcause
      exact hfirst failure rfl

/-- A reading that decodes still does with its value changed. -/
theorem map (f : α → β) (h : Reading.Decodes step) : Reading.Decodes (f <$> step) := by
  intro r
  rw [map_apply]
  exact (h r).map f

end Ber.Reading.Decodes

/-- An operation that is read in pieces is explained as a whole. -/
theorem readPieces_decodes (kind : Kind) (pieces : Reading (Body kind)) :
    Reading.Decodes (readPieces kind pieces) := by
  refine (Reading.Decodes.view _).bind fun next => ?_
  split
  · exact .explain _ _
  · exact .malformed _

/-- An operation of a known kind is read with every failure explained. -/
theorem readAs_decodes (kind : Kind) : Reading.Decodes (readAs kind) := by
  have hwhole : Reading.Decodes (readWhole kind) :=
    (Reading.Decodes.explain _ _).bind fun e => .of_decodes (decodeAs_decodes kind e)
  cases kind with
  | extendedRequest => exact readPieces_decodes .extendedRequest _
  | deleteRequest => exact readPieces_decodes .deleteRequest _
  | _ => exact hwhole

/-- An operation is read as the kind that comes next, or that is unknown or missing. -/
theorem Operation.read_decodes : Reading.Decodes read := by
  refine (Reading.Decodes.view _).bind fun next => ?_
  cases next with
  | none => exact .malformed _
  | some tag =>
      cases hkind : Kind.ofTag? tag with
      | none =>
          simp only [hkind]
          exact .malformed _
      | some kind =>
          simp only [hkind]
          exact (readAs_decodes kind).map _

namespace Message

/-- The controls of a message are read with an explanation that names the message. -/
theorem readControls_decodes (id : Int32) : Reading.Decodes (readControls id) :=
  (Reading.Decodes.explain _ _).bind fun e => .of_decodes (decodeControls_decodes id e)

/-- A message is read with its number, operation and controls explained. -/
theorem read_decodes : Reading.Decodes read := by
  rw [read_eq]
  refine (Reading.Decodes.explain _ _).bind fun opened => ?_
  have hid : Reading.Decodes readId :=
    (Reading.Decodes.explain _ _).bind fun id => .of_decodes (checkId_decodes id)
  refine hid.bind fun id => (Reading.Decodes.explain _ _).bind fun op => ?_
  refine (Reading.Decodes.view _).bind fun more => ?_
  have hend (controls : List Control) : Reading.Decodes (readEnd opened ⟨id, op, controls⟩) :=
    (Reading.Decodes.explain _ _).bind fun _ => .pure _
  split
  · exact (readControls_decodes id).bind hend
  · exact (Reading.Decodes.pure []).bind hend

end Message

/-! ## Transactions -/

namespace Transaction

/-- A call has the identifier that is expected, or is malformed. -/
theorem expectOid_decodes (oid : Oid) (call : ExtendedCall) : Decodes (expectOid oid call) := by
  rw [expectOid]
  split
  · exact .ok ()
  · exact .malformed _

/-- A call is a request to start a transaction, or is malformed. -/
theorem StartRequest.ofCall_decodes (call : ExtendedCall) : Decodes (ofCall call) := by
  refine (expectOid_decodes startOid call).bind fun _ => ?_
  split
  · exact .malformed _
  · exact .ok _

namespace EndRequest

/-- The value of a request to end a transaction is decoded with every failure explained. -/
theorem decodeValue_decodes (value : Octets) : Decodes (decodeValue value) := by
  refine (Decodes.explain _ _).bind fun parts => ?_
  split
  · exact .ok _
  · split
    · exact .malformed _
    · exact (Decodes.explain _ _).bind fun commit => .ok _
  · exact .malformed _

/-- A call is a request to end a transaction, or is not for a decoder's reason. -/
theorem ofCall_decodes (call : ExtendedCall) : Decodes (ofCall call) := by
  refine (expectOid_decodes endOid call).bind fun _ => ?_
  split
  · exact .malformed _
  · exact (decodeValue_decodes _).bind fun named => .ok _

end EndRequest

namespace ControlTable

/-- An entry is put into a table, or could not be decoded. -/
theorem insertDecoded_decodes (table : ControlTable) (e : Element) :
    Decodes (table.insertDecoded e) := by
  have hentry : Decodes (decodeEntry e) := by
    refine (Decodes.explain _ _).bind fun parts => ?_
    split
    · exact (Decodes.explain _ _).bind fun id => (Decodes.explain _ _).bind fun controls => .ok _
    · exact .malformed _
  exact hentry.bind fun entry => .ok _

/-- All entries are put into a table, or one of them could not be decoded. -/
theorem insertAll_decodes (table : ControlTable) (e : Element) : Decodes (table.insertAll e) :=
  (Decodes.explain _ _).bind fun entries => .foldlM insertDecoded_decodes entries table

end ControlTable

namespace EndReport

/-- A part of a report is taken, or is not one. -/
theorem withPart_decodes (report : EndReport) (part : Element) :
    Decodes (report.withPart part) := by
  rw [withPart]
  split
  · exact (Decodes.explain _ _).bind fun failed => .ok _
  split
  · exact (report.table.insertAll_decodes part).bind fun table => .ok _
  · exact .malformed _

/-- A report is decoded, or its value is missing or could not be. -/
theorem decodeValue_decodes (value? : Option Octets) : Decodes (decodeValue value?) := by
  cases value? with
  | none => exact .ok empty
  | some value =>
      refine (Decodes.explain _ _).bind fun parts => ?_
      by_cases hcount : 2 < parts.length
      · simp only [hcount, if_true]
        exact .malformed _
      · simp only [hcount, if_false]
        exact .foldlM withPart_decodes parts empty

end EndReport

/-- A reply is that at the end of a transaction, or is not for a decoder's reason. -/
theorem EndReply.ofReply_decodes (reply : ExtendedReply) : Decodes (ofReply reply) :=
  (EndReport.decodeValue_decodes _).bind fun _ => .ok _

end Transaction

end DirectoryAccess
