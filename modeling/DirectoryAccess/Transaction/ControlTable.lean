import DirectoryAccess.Control

/-!
# Control tables

A control table holds, under the numbers of messages, the controls of the
responses to them, in the order of the numbers. What was stored last under a
number is what the table gives for it (`get?_insert`).
-/

namespace DirectoryAccess.Transaction

open Ber (Element Tag)

/-- Controls under the numbers of the messages that they belong to. -/
structure ControlTable where
  /-- The numbers and the controls under them. -/
  entries : List (Int32 × List Control)
  /-- The numbers ascend, so that each has one list of controls. -/
  ascending : entries.Pairwise (·.1 < ·.1)
  deriving DecidableEq, Repr

namespace ControlTable

/-- The table without controls. -/
def empty : ControlTable := ⟨[], .nil⟩

/-- Whether there are no numbers in the table. -/
def isEmpty (table : ControlTable) : Bool := table.entries.isEmpty

/-- The controls under a number. -/
def get? (table : ControlTable) (id : Int32) : Option (List Control) :=
  (table.entries.find? (·.1 == id)).map (·.2)

/-! ## Storing controls -/

/-- Stores controls in front of the first greater number, in place of those under the same one. -/
def insertEntry (id : Int32) (controls : List Control) :
    List (Int32 × List Control) → List (Int32 × List Control)
  | [] => [(id, controls)]
  | entry :: rest =>
    if id < entry.1 then (id, controls) :: entry :: rest
    else if id = entry.1 then (id, controls) :: rest
    else entry :: insertEntry id controls rest

/-- An entry of a table into which one was put is that one or was there before. -/
theorem mem_insertEntry {id : Int32} {controls : List Control} {entry : Int32 × List Control}
    {entries : List (Int32 × List Control)} (h : entry ∈ insertEntry id controls entries) :
    entry.1 = id ∨ entry ∈ entries := by
  induction entries with
  | nil => exact .inl (congrArg Prod.fst (List.mem_singleton.mp h))
  | cons head rest ih =>
    rw [insertEntry] at h
    split at h
    · rcases List.mem_cons.mp h with h | h
      · exact .inl (congrArg Prod.fst h)
      · exact .inr h
    · split at h
      · rcases List.mem_cons.mp h with h | h
        · exact .inl (congrArg Prod.fst h)
        · exact .inr (List.mem_cons_of_mem _ h)
      · rcases List.mem_cons.mp h with h | h
        · exact .inr (h ▸ List.mem_cons_self ..)
        · exact (ih h).imp_right (List.mem_cons_of_mem _)

/-- Storing controls keeps the numbers in order. -/
theorem ascending_insertEntry (id : Int32) (controls : List Control)
    {entries : List (Int32 × List Control)} (h : entries.Pairwise (·.1 < ·.1)) :
    (insertEntry id controls entries).Pairwise (·.1 < ·.1) := by
  induction entries with
  | nil => exact List.pairwise_singleton ..
  | cons head rest ih =>
    obtain ⟨hhead, hrest⟩ := List.pairwise_cons.mp h
    rw [insertEntry]
    split
    · rename_i hlt
      refine List.pairwise_cons.mpr ⟨fun entry hmem => ?_, h⟩
      rcases List.mem_cons.mp hmem with rfl | hmem
      · exact hlt
      · exact Int32.lt_trans hlt (hhead entry hmem)
    · split
      · rename_i heq
        exact List.pairwise_cons.mpr ⟨fun entry hmem => heq ▸ hhead entry hmem, hrest⟩
      · rename_i hnlt hne
        refine List.pairwise_cons.mpr ⟨fun entry hmem => ?_, ih hrest⟩
        rcases mem_insertEntry hmem with heq | hmem
        · rw [heq]
          exact Int32.lt_of_le_of_ne (Int32.not_lt.mp hnlt) (Ne.symm hne)
        · exact hhead entry hmem

/-- Stores controls under a number, in place of those that were there. -/
def insert (table : ControlTable) (id : Int32) (controls : List Control) : ControlTable :=
  ⟨insertEntry id controls table.entries, ascending_insertEntry id controls table.ascending⟩

/-- What a table holds for a number, once controls were put in for one, is these controls for that
number and for any other what it was. -/
theorem find?_insertEntry (id other : Int32) (controls : List Control)
    (entries : List (Int32 × List Control)) :
    ((insertEntry id controls entries).find? (·.1 == other)).map (·.2) =
      if other = id then some controls else (entries.find? (·.1 == other)).map (·.2) := by
  induction entries with
  | nil =>
    by_cases h : other = id
    · subst h
      simp [insertEntry]
    · simp [insertEntry, h, Ne.symm h]
  | cons head rest ih =>
    rw [insertEntry]
    by_cases h : other = id
    · subst h
      rw [if_pos rfl] at ih ⊢
      split
      · simp
      · split
        · simp
        · rename_i hne
          rw [List.find?_cons_of_neg (by simpa using Ne.symm hne), ih]
    · rw [if_neg h] at ih ⊢
      split
      · rw [List.find?_cons_of_neg (by simpa using Ne.symm h)]
      · split
        · rename_i heq
          rw [List.find?_cons_of_neg (by simpa using Ne.symm h),
            List.find?_cons_of_neg (by simpa [← heq] using Ne.symm h)]
        · by_cases hh : head.1 = other
          · rw [List.find?_cons_of_pos (by simpa using hh),
              List.find?_cons_of_pos (by simpa using hh)]
          · rw [List.find?_cons_of_neg (by simpa using hh),
              List.find?_cons_of_neg (by simpa using hh), ih]

/-- A number has the controls that were stored under it last. -/
theorem get?_insert (table : ControlTable) (id other : Int32) (controls : List Control) :
    (table.insert id controls).get? other =
      if other = id then some controls else table.get? other :=
  find?_insertEntry id other controls table.entries

/-- The table of the given numbers and controls, the last ones of each number. -/
def ofList (entries : List (Int32 × List Control)) : ControlTable :=
  entries.foldl (fun table entry => table.insert entry.1 entry.2) empty

/-- The table without the numbers that have an empty list of controls. -/
def withoutEmpty (table : ControlTable) : ControlTable :=
  ⟨table.entries.filter (!·.2.isEmpty), table.ascending.filter _⟩

/-! ## Tables as elements -/

/-- The element of a number and its controls. -/
def encodeEntry (entry : Int32 × List Control) : Element :=
  .sequence Tag.sequence
    [.integer Tag.integer entry.1.toInt, Control.encodeList Tag.sequence entry.2]

/-- The element of a table. -/
def encode (table : ControlTable) : Element :=
  .sequence Tag.sequence (table.entries.map encodeEntry)

/-- The number and the controls that an element holds. -/
def decodeEntry (element : Element) : Except Failure (Int32 × List Control) := do
  match ← explain "operation response controls entry is not a sequence" element.asElements with
  | [id, controls] =>
    let id ← explain "cannot decode the message ID of a response controls entry" id.asInt32
    let controls ← explain s!"cannot decode the response controls for message {id}"
      (Control.decodeList controls)
    return (id, controls)
  | parts => throw (.elementCount "operation response controls entry" "2" parts.length)

/-- Stores what an element holds, unless it holds no controls. -/
def insertDecoded (table : ControlTable) (element : Element) : Except Failure ControlTable := do
  let (id, controls) ← decodeEntry element
  return if controls.isEmpty then table else table.insert id controls

/-- Stores what the entries of an element hold, the later ones in place of the earlier. -/
def insertAll (table : ControlTable) (element : Element) : Except Failure ControlTable := do
  let entries ← explain "operation response controls element is not a sequence" element.asElements
  entries.foldlM insertDecoded table

/-- A table in words. -/
def describe (table : ControlTable) : String :=
  ", ".intercalate (table.entries.map fun entry =>
    s!"opMsgID={entry.1}, opControls=\x7b" ++ Control.describeList entry.2 ++ "\x7d")

end ControlTable

end DirectoryAccess.Transaction
