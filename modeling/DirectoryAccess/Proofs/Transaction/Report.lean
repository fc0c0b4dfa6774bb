import DirectoryAccess.Proofs.Ber.TwosComplement
import DirectoryAccess.Proofs.Decoding
import DirectoryAccess.Proofs.Transaction.ControlTable

/-!
# What the value of a report says

A value is an element with at most two parts. Each part gives an account: it is the number
of a failed operation, or a list of entries with the controls of one operation each
(`EndReport.IsAccount`). A report takes the accounts in one after the other, so that the last
number counts and, for each operation, the last entry that has controls
(`EndReport.decodeValue_iff_accounts`).
-/

namespace DirectoryAccess.Transaction

open Ber (Element Tag HoldsInt32 decodeInt32_eq_ok_iff)

/-- An element that holds the number of an operation and the controls of its response. -/
def IsEntry (element : Element) (entry : Int32 × List Control) : Prop :=
  ∃ number list parts, element.asElements = .ok [number, list] ∧
    HoldsInt32 number.value entry.1 ∧ list.asElements = .ok parts ∧
    List.Forall₂ (fun part control => Control.decode part = .ok control) parts entry.2

/-- An entry is read from the elements that hold it. -/
theorem ControlTable.decodeEntry_eq_ok_iff {element : Element} {entry : Int32 × List Control} :
    decodeEntry element = .ok entry ↔ IsEntry element entry := by
  rw [decodeEntry, explain_bind_eq_ok_iff]
  constructor
  · rintro ⟨parts, hparts, h⟩
    split at h
    · obtain ⟨id, hid, h⟩ := explain_bind_eq_ok_iff.mp h
      obtain ⟨controls, hcontrols, h⟩ := explain_bind_eq_ok_iff.mp h
      obtain rfl := Except.ok.inj h
      obtain ⟨parts, hlist, hread⟩ := Control.decodeList_eq_ok_iff.mp hcontrols
      exact ⟨_, _, parts, hparts, decodeInt32_eq_ok_iff.mp hid, hlist, mapM_eq_ok_iff.mp hread⟩
    · cases h
  · rintro ⟨number, list, parts, hparts, hid, hlist, hread⟩
    exact ⟨_, hparts, explain_bind_eq_ok_iff.mpr ⟨_, decodeInt32_eq_ok_iff.mpr hid,
      explain_bind_eq_ok_iff.mpr ⟨_, Control.decodeList_eq_ok_iff.mpr
        ⟨parts, hlist, mapM_eq_ok_iff.mpr hread⟩, rfl⟩⟩⟩

namespace EndReport

/-! ## Accounts -/

/-- What one part of a value says. -/
inductive Account
  /-- The operation with the given number failed. -/
  | failed (id : Int32)
  /-- Operations with the given numbers had responses with the given controls. -/
  | controls (entries : List (Int32 × List Control))

namespace Account

/-- The number of a failed operation, if the account gives one. -/
def failed? : Account → Option Int32
  | failed id => some id
  | controls _ => none

/-- The entries that an account gives. -/
def entries : Account → List (Int32 × List Control)
  | failed _ => []
  | controls entries => entries

end Account

/-- An element that gives an account. -/
inductive IsAccount (part : Element) : Account → Prop
  /-- A number, of one to eight octets and within 32 bits. -/
  | failed {id : Int32} (htag : part.tag = Tag.integer) (hid : HoldsInt32 part.value id) :
      IsAccount part (.failed id)
  /-- A sequence of entries. -/
  | controls {elements : List Element} {entries : List (Int32 × List Control)}
      (htag : part.tag = Tag.sequence) (hparts : part.asElements = .ok elements)
      (hentries : List.Forall₂ IsEntry elements entries) : IsAccount part (.controls entries)

/-- Takes an account into a report. -/
def take (report : EndReport) : Account → EndReport
  | .failed id => { report with failed := id }
  | .controls entries => { report with table := entries.foldl .store report.table }

variable {report last : EndReport} {parts : List Element} {accounts : List Account}

/-- The last number in the accounts is the one that is reported. -/
theorem failed_foldl_take (report : EndReport) (accounts : List Account) :
    (accounts.foldl take report).failed =
      (accounts.filterMap Account.failed?).getLast?.getD report.failed := by
  induction accounts generalizing report with
  | nil => rfl
  | cons account accounts ih =>
      rw [List.foldl_cons, ih]
      cases account with
      | failed id =>
          have hfailed : Account.failed? (.failed id) = some id := rfl
          rw [List.filterMap_cons_some hfailed, List.getLast?_cons]
          rfl
      | controls entries =>
          have hfailed : Account.failed? (.controls entries) = none := rfl
          rw [List.filterMap_cons_none hfailed]
          rfl

/-- The entries in the accounts are stored in order. -/
theorem table_foldl_take (report : EndReport) (accounts : List Account) :
    (accounts.foldl take report).table =
      (accounts.flatMap Account.entries).foldl .store report.table := by
  induction accounts generalizing report with
  | nil => rfl
  | cons account accounts ih =>
      rw [List.foldl_cons, ih, List.flatMap_cons, List.foldl_append]
      cases account <;> rfl

/-- For each operation a report has the last controls that accounts give, or those that it had. -/
theorem get?_foldl_take (report : EndReport) (accounts : List Account) (id : Int32) :
    (accounts.foldl take report).table.get? id =
      (((accounts.flatMap Account.entries).filter
        (ControlTable.holdsFor id)).getLast?.map (·.2)).or (report.table.get? id) := by
  rw [table_foldl_take, ControlTable.get?_foldl_store]

/-! ## Reading -/

/-- A number is taken into a report as that of the failed operation. -/
theorem withPart_integer {part : Element} (htag : part.tag = Tag.integer) :
    report.withPart part = (explain "cannot decode the failed operation message ID" part.asInt32 >>=
      fun failed => .ok { report with failed }) :=
  if_pos htag

/-- The entries of a table are stored in that of a report. -/
theorem withPart_sequence {part : Element} (htag : part.tag = Tag.sequence) :
    report.withPart part =
      (report.table.insertAll part >>= fun table => .ok { report with table }) := by
  have hne : part.tag ≠ Tag.integer := by
    rw [htag]
    decide
  exact (if_neg hne).trans (if_pos htag)

/-- A part is taken into a report as the account that it gives. -/
theorem withPart_eq_ok_iff {part : Element} : report.withPart part = .ok last ↔
    ∃ account, IsAccount part account ∧ last = report.take account := by
  constructor
  · intro h
    by_cases hinteger : part.tag = Tag.integer
    · rw [withPart_integer hinteger] at h
      obtain ⟨id, hid, h⟩ := explain_bind_eq_ok_iff.mp h
      exact ⟨_, .failed hinteger (decodeInt32_eq_ok_iff.mp hid), (Except.ok.inj h).symm⟩
    by_cases hsequence : part.tag = Tag.sequence
    · rw [withPart_sequence hsequence] at h
      obtain ⟨table, htable, h⟩ := bind_eq_ok_iff.mp h
      obtain ⟨elements, entries, hparts, hread, rfl⟩ := ControlTable.insertAll_eq_ok_iff.mp htable
      have hentries : List.Forall₂ IsEntry elements entries :=
        (mapM_eq_ok_iff.mp hread).imp fun _ _ => ControlTable.decodeEntry_eq_ok_iff.mp
      exact ⟨_, .controls hsequence hparts hentries, (Except.ok.inj h).symm⟩
    · rw [withPart, if_neg hinteger, if_neg hsequence] at h
      cases h
  · rintro ⟨account, haccount, rfl⟩
    cases haccount with
    | failed htag hid =>
        rw [withPart_integer htag]
        exact explain_bind_eq_ok_iff.mpr ⟨_, decodeInt32_eq_ok_iff.mpr hid, rfl⟩
    | controls htag hparts hentries =>
        rw [withPart_sequence htag]
        have hread := mapM_eq_ok_iff.mpr
          (hentries.imp fun _ _ => ControlTable.decodeEntry_eq_ok_iff.mpr)
        exact bind_eq_ok_iff.mpr
          ⟨_, ControlTable.insertAll_eq_ok_iff.mpr ⟨_, _, hparts, hread, rfl⟩, rfl⟩

/-- Parts are taken into a report as the accounts that they give. -/
theorem foldlM_withPart_eq_ok_iff : parts.foldlM withPart report = .ok last ↔
    ∃ accounts, List.Forall₂ IsAccount parts accounts ∧ last = accounts.foldl take report := by
  induction parts generalizing report with
  | nil => simp [eq_comm]
  | cons part parts ih =>
      rw [List.foldlM_cons, bind_eq_ok_iff]
      constructor
      · rintro ⟨next, hnext, h⟩
        obtain ⟨account, haccount, rfl⟩ := withPart_eq_ok_iff.mp hnext
        obtain ⟨accounts, haccounts, rfl⟩ := ih.mp h
        exact ⟨account :: accounts, .cons haccount haccounts, rfl⟩
      · rintro ⟨_, _ | ⟨haccount, haccounts⟩, rfl⟩
        exact ⟨_, withPart_eq_ok_iff.mpr ⟨_, haccount, rfl⟩, ih.mpr ⟨_, haccounts, rfl⟩⟩

/-- A value is read where it is an element with at most two parts, all of which are read. -/
theorem decodeValue_some_eq_ok_iff {value : Octets} :
    decodeValue (some value) = .ok report ↔
      ∃ parts, (Element.decode value >>= Element.asElements) = .ok parts ∧
        parts.length ≤ 2 ∧ parts.foldlM withPart empty = .ok report := by
  rw [decodeValue, explain_bind_eq_ok_iff]
  refine exists_congr fun parts => and_congr_right fun _ => ?_
  by_cases h : 2 < parts.length
  · simp [h, Nat.not_le.mpr h]
  · simp [h, Nat.not_lt.mp h]

/-- A report is given by its number and by what it has under each number. -/
theorem eq_iff_failed_and_get? {other : EndReport} :
    report = other ↔
      report.failed = other.failed ∧ ∀ id, report.table.get? id = other.table.get? id := by
  constructor
  · rintro rfl
    exact ⟨rfl, fun _ => rfl⟩
  · intro h
    obtain ⟨failed, table⟩ := report
    obtain rfl : failed = other.failed := h.1
    obtain rfl : table = other.table := ControlTable.ext_get? h.2
    rfl

/-- **What the value of a report says.** A value is read exactly if it is an element whose parts, at
most two, give accounts. The report names the last number among them, or `-1`; and it has under each
number the controls of the last entry for it that has controls, and nothing under a number without
such an entry. No other value gives a report: it is refused with a decoding failure. -/
theorem decodeValue_iff_accounts (value : Octets) :
    (∀ report : EndReport, decodeValue (some value) = .ok report ↔ ∃ element parts accounts,
      Element.decode value = .ok element ∧ element.asElements = .ok parts ∧ parts.length ≤ 2 ∧
      List.Forall₂ IsAccount parts accounts ∧
      report.failed = (accounts.filterMap Account.failed?).getLast?.getD (-1) ∧
      ∀ id, report.table.get? id =
        ((accounts.flatMap Account.entries).filter
          fun entry => entry.1 == id && !entry.2.isEmpty).getLast?.map (·.2)) ∧
    ((∃ report, decodeValue (some value) = .ok report) ∨
      ∃ failure, decodeValue (some value) = .error failure ∧ failure.OfDecoder) := by
  refine ⟨fun report => ?_, ?_⟩
  · have hreport (accounts : List Account) : report = accounts.foldl take empty ↔
        report.failed = (accounts.filterMap Account.failed?).getLast?.getD (-1) ∧
        ∀ id, report.table.get? id = ((accounts.flatMap Account.entries).filter
          (ControlTable.holdsFor id)).getLast?.map (·.2) := by
      simp only [eq_iff_failed_and_get?, failed_foldl_take, get?_foldl_take]
      simp only [empty, noOperation, ControlTable.get?_empty, Option.or_none]
    rw [decodeValue_some_eq_ok_iff]
    constructor
    · rintro ⟨parts, hparts, hcount, hfold⟩
      obtain ⟨element, helement, hparts⟩ := bind_eq_ok_iff.mp hparts
      obtain ⟨accounts, haccounts, h⟩ := foldlM_withPart_eq_ok_iff.mp hfold
      exact ⟨element, parts, accounts, helement, hparts, hcount, haccounts,
        (hreport accounts).mp h⟩
    · rintro ⟨element, parts, accounts, helement, hparts, hcount, haccounts, h⟩
      exact ⟨parts, bind_eq_ok_iff.mpr ⟨element, helement, hparts⟩, hcount,
        foldlM_withPart_eq_ok_iff.mpr ⟨accounts, haccounts, (hreport accounts).mpr h⟩⟩
  · cases h : decodeValue (some value) with
    | ok report => exact .inl ⟨report, rfl⟩
    | error failure => exact .inr ⟨failure, rfl, decodeValue_decodes _ failure h⟩

/-- An entry without controls does not take away those of an earlier one. -/
example :
    let control : Control := ⟨⟨"1.2", by decide⟩, false, none⟩
    let entries := [(7, [control]), (7, [])].map ControlTable.encodeEntry
    let value := Element.sequence Tag.sequence [.sequence Tag.sequence entries]
    (decodeValue (some value.encode)).map (·.table.get? 7) = .ok (some [control]) := by
  decide +kernel

end EndReport

end DirectoryAccess.Transaction
