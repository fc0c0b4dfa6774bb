import DirectoryAccess.Proofs.Extended
import DirectoryAccess.Proofs.Transaction.Report

/-!
# Reports of ended transactions

A report tells of a failed operation and of the controls that were given, empty lists
left out (`EndReport.Tells`). The value that is written for them is read as the report that
tells of them, so a reply that is made here is the reply that is read from its message
(`EndReply.ofReply_ofOutcome`).

Reports should name no operation but by a positive number, or `-1` for none, and should
have no empty lists. Those that are made here do, and no report that is read has an empty
list; but a number is kept as it was sent, so a report that is read is regular exactly if
the last number in its value is (`EndReply.regular_iff_sentNumbers`).
-/

namespace DirectoryAccess.Transaction

open Ber (Element Tag)
open Ber.Element

namespace EndReport

variable {failed? : Option Int32} {table? : Option ControlTable} {report : EndReport}

/-- A report that tells of the given operation and of the given controls. -/
structure Tells (failed? : Option Int32) (table? : Option ControlTable) (report : EndReport) :
    Prop where
  /-- The number is the one that was given, or `-1`. -/
  failed_eq : report.failed = failed?.getD (-1)
  /-- The controls under a number are those that were given, unless there were none. -/
  get?_eq : ∀ id, report.table.get? id = (table?.bind (·.get? id)).filter (!·.isEmpty)

/-- A table that was given is told of without its empty lists. -/
theorem tells_withoutEmpty (failed? : Option Int32) (table? : Option ControlTable) :
    Tells failed? table?
      ⟨failed?.getD noOperation, (table?.map (·.withoutEmpty)).getD .empty⟩ := by
  refine ⟨rfl, fun id => ?_⟩
  cases table? with
  | none => rfl
  | some table => exact table.get?_withoutEmpty id

/-! ## Values of reports -/

/-- The elements of the value that reports a failed operation and controls. -/
def parts (failed? : Option Int32) (table? : Option ControlTable) : List Element :=
  failed?.toList.map (fun id => Element.integer Tag.integer id.toInt) ++
    (table?.toList.filter (!·.isEmpty)).map ControlTable.encode

/-- The element that is the value that reports a failed operation and controls. -/
def encode (failed? : Option Int32) (table? : Option ControlTable) : Element :=
  .sequence Tag.sequence (parts failed? table?)

/-- There is no value if there is neither a number nor a table to report. -/
theorem encodeValue_eq (failed? : Option Int32) (table? : Option ControlTable) :
    encodeValue failed? table? =
      if failed? = none ∧ table? = none then none else some (encode failed? table?).encode := by
  cases failed? <;> cases table? <;> rfl

/-- A report has at most two parts. -/
theorem length_parts_le (failed? : Option Int32) (table? : Option ControlTable) :
    (parts failed? table?).length ≤ 2 := by
  have hfailed : failed?.toList.length ≤ 1 := by cases failed? <;> simp
  have htable : (table?.toList.filter (!·.isEmpty)).length ≤ 1 :=
    (List.length_filter_le _ _).trans (by cases table? <;> simp)
  rw [parts, List.length_append, List.length_map, List.length_map]
  omega

/-- The value that reports a failed operation and controls is read as the report that tells of
them. -/
theorem foldlM_withPart_parts (hs : (encode failed? table?).value.length < 2 ^ 32) :
    (parts failed? table?).foldlM withPart empty =
      .ok ⟨failed?.getD noOperation, (table?.map (·.withoutEmpty)).getD .empty⟩ := by
  have hfailed : (failed?.toList.map fun id => Element.integer Tag.integer id.toInt).foldlM
      withPart empty = .ok ⟨failed?.getD noOperation, .empty⟩ := by
    cases failed? with
    | none => rfl
    | some id =>
        rw [Option.toList_some, List.map_singleton, List.foldlM_cons,
          withPart_integer (integer_tag _ _), asInt32_integer]
        rfl
  rw [parts, List.foldlM_append, hfailed, ok_bind]
  cases table? with
  | none => rfl
  | some table =>
      cases hempty : table.isEmpty with
      | true =>
          have hentries : table.entries = [] := List.isEmpty_iff.mp hempty
          have hnone : table.withoutEmpty = .empty := by
            apply ControlTable.ext_get?
            intro id
            rw [ControlTable.get?_withoutEmpty, ControlTable.get?, hentries]
            rfl
          simp [hempty, hnone]
      | false =>
          have hsize : table.encode.value.length < 2 ^ 32 :=
            length_value_lt_of_mem (by simp [parts, hempty]) hs
          have hkept : (some table).toList.filter (!·.isEmpty) = [table] := by simp [hempty]
          rw [hkept, List.map_singleton, List.foldlM_cons, withPart_sequence table.encode_tag,
            ControlTable.insertAll_encode hsize]
          rfl

/-- What is written as the value of a report is read as the report that tells of the same. -/
theorem decodeValue_encodeValue (hs : (encode failed? table?).value.length < 2 ^ 32) :
    decodeValue (encodeValue failed? table?) =
      .ok ⟨failed?.getD noOperation, (table?.map (·.withoutEmpty)).getD .empty⟩ := by
  rw [encodeValue_eq]
  split
  · rename_i h
    rw [h.1, h.2]
    rfl
  · have hparts : (encode failed? table?).asElements = .ok (parts failed? table?) := by
      refine asElements_sequence ?_ hs
      intro t ht
      rw [parts, List.map_append, List.mem_append, List.map_map, List.map_map] at ht
      rcases ht with ht | ht
      · obtain ⟨id, -, rfl⟩ := List.mem_map.mp ht
        exact Ber.isMultiOctet_integer
      · obtain ⟨table, -, rfl⟩ := List.mem_map.mp ht
        exact Ber.isMultiOctet_sequence
    refine decodeValue_some_eq_ok_iff.mpr ⟨_, ?_, length_parts_le failed? table?,
      foldlM_withPart_parts hs⟩
    rw [Element.decode_encode Ber.isMultiOctet_sequence hs, ok_bind, hparts]

/-! ## Regular reports -/

/-- A report that names an operation by a positive number, or none, and has no empty lists. -/
structure Regular (report : EndReport) : Prop where
  /-- The number is positive, or `-1` for none. -/
  failed_eq_or_pos : report.failed = -1 ∨ 0 < report.failed
  /-- Under each number there are controls. -/
  get?_ne_nil : ∀ id, report.table.get? id ≠ some []

/-- A report without empty lists is regular where the number that it names, if there is one, is. -/
theorem regular_iff_of_failed_eq {number? : Option Int32}
    (hfailed : report.failed = number?.getD (-1)) (hne : ∀ id, report.table.get? id ≠ some []) :
    report.Regular ↔ ∀ number ∈ number?, number = -1 ∨ 0 < number := by
  constructor
  · rintro ⟨hregular, -⟩ number rfl
    rw [hfailed] at hregular
    exact hregular
  · intro h
    refine ⟨?_, hne⟩
    rw [hfailed]
    cases number? with
    | none => exact .inl rfl
    | some number => exact h number rfl

/-- The number that a part of a value is, as that of the failed operation. -/
def sentNumber? (part : Element) : Option Int32 :=
  if part.tag = Tag.integer then part.asInt32.toOption else none

/-- The numbers in a value, in order. -/
def sentNumbers (value : Octets) : List Int32 :=
  match Element.decode value >>= Element.asElements with
  | .ok parts => parts.filterMap sentNumber?
  | .error _ => []

/-- The number in a part is the one that it gives an account of. -/
theorem sentNumber?_of_isAccount {part : Element} {account : Account}
    (h : IsAccount part account) : sentNumber? part = account.failed? := by
  cases h with
  | failed htag hid =>
      rw [sentNumber?, if_pos htag, asInt32, Ber.decodeInt32_eq_ok_iff.mpr hid]
      rfl
  | controls htag =>
      rw [sentNumber?, htag]
      rfl

/-- The numbers in a value are those that its parts give accounts of. -/
theorem filterMap_sentNumber? {parts : List Element} {accounts : List Account}
    (h : List.Forall₂ IsAccount parts accounts) :
    parts.filterMap sentNumber? = accounts.filterMap Account.failed? := by
  induction h with
  | nil => rfl
  | cons haccount _ ih =>
      rw [List.filterMap_cons, List.filterMap_cons, sentNumber?_of_isAccount haccount, ih]

/-- A report that is read names the last number in its value, or none. -/
theorem failed_of_decodeValue {value? : Option Octets} (h : decodeValue value? = .ok report) :
    report.failed = (value?.elim [] sentNumbers).getLast?.getD (-1) := by
  cases value? with
  | none =>
      cases h
      rfl
  | some value =>
      obtain ⟨parts, hparts, -, hfold⟩ := decodeValue_some_eq_ok_iff.mp h
      obtain ⟨accounts, haccounts, rfl⟩ := foldlM_withPart_eq_ok_iff.mp hfold
      have hsent : sentNumbers value = parts.filterMap sentNumber? := by rw [sentNumbers, hparts]
      rw [Option.elim_some, hsent, filterMap_sentNumber? haccounts]
      exact failed_foldl_take empty accounts

/-- A report that is read has no empty lists. -/
theorem get?_ne_nil_of_decodeValue {value? : Option Octets} (h : decodeValue value? = .ok report) :
    ∀ id, report.table.get? id ≠ some [] := by
  cases value? with
  | none =>
      cases h
      exact fun _ => nofun
  | some value =>
      obtain ⟨parts, -, -, hfold⟩ := decodeValue_some_eq_ok_iff.mp h
      obtain ⟨accounts, -, rfl⟩ := foldlM_withPart_eq_ok_iff.mp hfold
      rw [table_foldl_take]
      have hempty : ∀ id, empty.table.get? id ≠ some [] := fun _ => nofun
      exact ControlTable.get?_foldl_store_ne_nil hempty _

end EndReport

namespace EndReply

open EndReport

variable {reply : ExtendedReply} {ending : EndReply}

/-- What is made of a reply is read from its value. -/
theorem ofReply_eq_ok_iff : ofReply reply = .ok ending ↔
    ending.reply = reply ∧ decodeValue reply.response.named.value = .ok ending.report := by
  rw [ofReply, bind_eq_ok_iff]
  constructor
  · rintro ⟨report, hreport, h⟩
    obtain rfl := Except.ok.inj h
    exact ⟨rfl, hreport⟩
  · rintro ⟨rfl, hreport⟩
    exact ⟨_, hreport, rfl⟩

section Made

variable (id : Int32) (outcome : Outcome) (failed? : Option Int32) (table? : Option ControlTable)
  (controls : List Control)

/-- A reply that is made here tells of a number that is positive and of lists that are not empty. -/
theorem tells_ofOutcome :
    (ofOutcome id outcome failed? table? controls).report.Tells (failed?.filter (0 < ·)) table? :=
  tells_withoutEmpty (failed?.filter (0 < ·)) table?

/-- A reply that is made here is what is read from its value. -/
theorem ofReply_reply_ofOutcome
    (hs : (encode (failed?.filter (0 < ·)) (table?.map (·.withoutEmpty))).value.length < 2 ^ 32) :
    ofReply (ofOutcome id outcome failed? table? controls).reply =
      .ok (ofOutcome id outcome failed? table? controls) := by
  have hread := decodeValue_encodeValue hs
  have htable : (table?.map (·.withoutEmpty)).map (·.withoutEmpty) =
      table?.map (·.withoutEmpty) := by
    cases table? with
    | none => rfl
    | some table => exact congrArg some table.withoutEmpty_withoutEmpty
  rw [htable] at hread
  exact ofReply_eq_ok_iff.mpr ⟨rfl, hread⟩

/-- The value of a reply that is made here is shorter than the message that carries the reply. -/
theorem length_encode_lt {n : Nat}
    (hs : (ofOutcome id outcome failed? table? controls).reply.toMessage.encode.value.length < n) :
    (encode (failed?.filter (0 < ·)) (table?.map (·.withoutEmpty))).value.length < n := by
  cases hvalue : encodeValue (failed?.filter (0 < ·)) (table?.map (·.withoutEmpty)) with
  | none =>
      rw [encodeValue_eq] at hvalue
      split at hvalue
      · rename_i habsent
        rw [habsent.1, habsent.2]
        exact Nat.zero_lt_of_lt hs
      · cases hvalue
  | some value =>
      have hlt := ExtendedReply.length_value_lt
        (ofOutcome id outcome failed? table? controls).reply hvalue hs
      rw [encodeValue_eq] at hvalue
      split at hvalue
      · cases hvalue
      · obtain rfl := Option.some.inj hvalue
        rw [length_encode] at hlt
        omega

/-- A reply that is made here names an operation by a positive number, or none, and has no empty
lists. -/
theorem regular_ofOutcome : (ofOutcome id outcome failed? table? controls).report.Regular := by
  have htells := tells_ofOutcome id outcome failed? table? controls
  constructor
  · rw [htells.failed_eq]
    cases hpos : failed?.filter (0 < ·) with
    | none => exact .inl rfl
    | some failed => exact .inr (by simpa using (Option.filter_eq_some_iff.mp hpos).2)
  · intro number h
    rw [htells.get?_eq, Option.filter_eq_some_iff] at h
    simp at h

end Made

/-- **One reply on both ways.** A reply that is made here tells of the failed operation, if its
number is positive, and of the lists that are not empty. It is what is read from its own value, and,
if the number of the message is not negative, what is read from the octets of the message that
carries it. Whatever number and table are given, the value that is written for them is read as the
report that tells of them; no value is written for nothing, and none is read as a report of nothing.
All this as far as the values take fewer than `2 ^ 32` octets. -/
theorem ofReply_ofOutcome :
    (∀ (id : Int32) (outcome : Outcome) (failed? : Option Int32) (table? : Option ControlTable)
      (controls : List Control),
      let ending := ofOutcome id outcome failed? table? controls
      ending.report.Tells (failed?.filter (0 < ·)) table? ∧
        ((encode (failed?.filter (0 < ·)) (table?.map (·.withoutEmpty))).value.length < 2 ^ 32 →
          ofReply ending.reply = .ok ending) ∧
        (0 ≤ id → ending.reply.toMessage.encode.value.length < 2 ^ 32 →
          (Message.ofOctets ending.reply.toMessage.toOctets >>= ExtendedReply.ofMessage >>=
            ofReply) = .ok ending)) ∧
    (∀ (failed? : Option Int32) (table? : Option ControlTable),
      (encode failed? table?).value.length < 2 ^ 32 →
      ∃ report, decodeValue (encodeValue failed? table?) = .ok report ∧
        report.Tells failed? table?) ∧
    encodeValue none none = none ∧ decodeValue none = .ok ⟨-1, .empty⟩ := by
  refine ⟨?_, ?_, rfl, rfl⟩
  · intro id outcome failed? table? controls ending
    have hread := ofReply_reply_ofOutcome id outcome failed? table? controls
    refine ⟨tells_ofOutcome id outcome failed? table? controls, hread, ?_⟩
    intro hid hs
    have hmessage : (Message.ofOctets ending.reply.toMessage.toOctets >>=
        ExtendedReply.ofMessage) = .ok ending.reply :=
      ExtendedReply.ofMessage_ofOctets hid hs
    rw [hmessage, ok_bind]
    exact hread (length_encode_lt id outcome failed? table? controls hs)
  · intro failed? table? hs
    exact ⟨_, decodeValue_encodeValue hs, tells_withoutEmpty failed? table?⟩

/-- A control that has only a name. -/
def plainControl : Control := ⟨⟨"1.2.3.4", by decide⟩, false, none⟩

/-- Controls for the second message and an empty list for the seventh. -/
def secondAndSeventh : ControlTable := .ofList [(7, []), (2, [plainControl])]

/-- A report of the third operation, with controls for the second one and none for the seventh, is
read back from its reply. -/
theorem ofReply_ofOutcome_secondAndSeventh :
    let ending := ofOutcome 6 (.ofCode ⟨19⟩) (some 3) (some secondAndSeventh) []
    (ending.report.failed = 3 ∧ ending.report.table.get? 2 = some [plainControl] ∧
        ending.report.table.get? 7 = none) ∧
      ofReply ending.reply = .ok ending ∧
      (Message.ofOctets ending.reply.toMessage.toOctets >>= ExtendedReply.ofMessage >>=
        ofReply) = .ok ending ∧
      ∃ report, decodeValue (encodeValue (some (-5)) (some secondAndSeventh)) = .ok report ∧
        report.failed = -5 ∧ report.table.get? 7 = none := by
  intro ending
  obtain ⟨hmade, hwritten, -⟩ := ofReply_ofOutcome
  obtain ⟨htells, hvalue, hmessage⟩ :=
    hmade 6 (.ofCode ⟨19⟩) (some 3) (some secondAndSeventh) []
  have hs : ending.reply.toMessage.encode.value.length < 2 ^ 32 := by decide +kernel
  obtain ⟨report, hread, hreport⟩ :=
    hwritten (some (-5)) (some secondAndSeventh) (by decide +kernel)
  exact ⟨⟨htells.failed_eq, htells.get?_eq 2, htells.get?_eq 7⟩, hvalue (by decide +kernel),
    hmessage (by decide) hs, report, hread, hreport.failed_eq, hreport.get?_eq 7⟩

/-- **Regular reports.** A reply that is made here names an operation by a positive number, or `-1`
for none, and has no empty lists. A reply that is read has no empty lists either; but it names the
operation by the last number in its value, whatever that is, so it is regular exactly if that number
is `-1` or positive, or there is none. -/
theorem regular_iff_sentNumbers (id : Int32) (outcome : Outcome) (failed? : Option Int32)
    (table? : Option ControlTable) (controls : List Control) (reply : ExtendedReply) :
    (ofOutcome id outcome failed? table? controls).report.Regular ∧
    ∀ ending : EndReply, ofReply reply = .ok ending →
      (∀ id, ending.report.table.get? id ≠ some []) ∧
        ending.report.failed =
          (reply.response.named.value.elim [] sentNumbers).getLast?.getD (-1) ∧
        (ending.report.Regular ↔
          ∀ failed ∈ (reply.response.named.value.elim [] sentNumbers).getLast?,
            failed = -1 ∨ 0 < failed) := by
  refine ⟨regular_ofOutcome id outcome failed? table? controls, fun ending h => ?_⟩
  have hread := (ofReply_eq_ok_iff.mp h).2
  have hfailed := failed_of_decodeValue hread
  have hne := get?_ne_nil_of_decodeValue hread
  exact ⟨hne, hfailed, regular_iff_of_failed_eq hfailed hne⟩

/-- A reply with the given value and nothing else. -/
def replyOf (value : Octets) : ExtendedReply := ⟨1, ⟨.ofCode ⟨0⟩, ⟨none, some value⟩⟩, []⟩

/-- Of two numbers that were sent, the first of which is no number of an operation, the second
counts. -/
theorem regular_iff_sentNumbers_secondOfTwo :
    ofReply (replyOf [0x30, 0x06, 0x02, 0x01, 0x00, 0x02, 0x01, 0x05]) =
        .ok ⟨replyOf [0x30, 0x06, 0x02, 0x01, 0x00, 0x02, 0x01, 0x05], ⟨5, .empty⟩⟩ ∧
      EndReport.Regular ⟨5, .empty⟩ := by
  have hread : ofReply (replyOf [0x30, 0x06, 0x02, 0x01, 0x00, 0x02, 0x01, 0x05]) =
      .ok ⟨replyOf [0x30, 0x06, 0x02, 0x01, 0x00, 0x02, 0x01, 0x05], ⟨5, .empty⟩⟩ := by
    decide +kernel
  have hsent : (sentNumbers [0x30, 0x06, 0x02, 0x01, 0x00, 0x02, 0x01, 0x05]).getLast? =
      some 5 := by
    decide +kernel
  obtain ⟨-, hsentOnly⟩ := regular_iff_sentNumbers 1 (.ofCode ⟨0⟩) (some 0) none []
    (replyOf [0x30, 0x06, 0x02, 0x01, 0x00, 0x02, 0x01, 0x05])
  obtain ⟨-, -, hiff⟩ := hsentOnly _ hread
  refine ⟨hread, hiff.mpr fun failed hfailed => ?_⟩
  obtain rfl := Option.some.inj (hsent.symm.trans hfailed)
  exact .inr (by decide)

/-- A reply that names an operation by zero is read as it was sent. -/
theorem ofReply_zero_not_regular :
    ofReply (replyOf [0x30, 0x03, 0x02, 0x01, 0x00]) =
        .ok ⟨replyOf [0x30, 0x03, 0x02, 0x01, 0x00], ⟨0, .empty⟩⟩ ∧
      ¬ EndReport.Regular ⟨0, .empty⟩ := by
  refine ⟨by decide +kernel, ?_⟩
  rintro ⟨hfailed, -⟩
  exact absurd hfailed (by decide)

end EndReply

end DirectoryAccess.Transaction
