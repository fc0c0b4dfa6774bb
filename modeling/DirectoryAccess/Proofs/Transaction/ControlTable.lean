import Mathlib.Data.List.Sort
import DirectoryAccess.Proofs.Control
import DirectoryAccess.Transaction.ControlTable

/-!
# Control tables read back

A table is known by what it gives for each number (`ext_get?`). What is read from the
entries of an element is, for each number, the last list of controls that is not empty
(`get?_foldl_store`). So a table is read back from its element without its empty lists
(`insertAll_encode`), and no table that is read has an empty list.
-/

namespace DirectoryAccess.Transaction

open Ber (Element Tag)
open Ber.Element

namespace ControlTable

/-! ## What a table gives for a number -/

/-- Entries of a table that have the same number are the same. -/
theorem eq_of_mem_entries {table : ControlTable} {a b : Int32 × List Control}
    (ha : a ∈ table.entries) (hb : b ∈ table.entries) (h : a.1 = b.1) : a = b := by
  have hnodup : (table.entries.map (·.1)).Nodup := by
    rw [List.nodup_iff_pairwise_ne, List.pairwise_map]
    exact table.ascending.imp Int32.ne_of_lt
  exact List.inj_on_of_nodup_map hnodup ha hb h

/-- A table gives for a number the controls that stand under it. -/
theorem get?_eq_some_iff {table : ControlTable} {id : Int32} {controls : List Control} :
    table.get? id = some controls ↔ (id, controls) ∈ table.entries := by
  rw [get?, Option.map_eq_some_iff]
  constructor
  · rintro ⟨⟨number, found⟩, hfind, rfl⟩
    have hnumber : number = id := by simpa using List.find?_some hfind
    rw [← hnumber]
    exact List.mem_of_find?_eq_some hfind
  · intro hmem
    have hsome : (table.entries.find? (·.1 == id)).isSome :=
      List.find?_isSome.mpr ⟨_, hmem, beq_self_eq_true id⟩
    obtain ⟨found, hfind⟩ := Option.isSome_iff_exists.mp hsome
    have hnumber : found.1 = id := by simpa using List.find?_some hfind
    obtain rfl := eq_of_mem_entries (List.mem_of_find?_eq_some hfind) hmem hnumber
    exact ⟨_, hfind, rfl⟩

@[simp] theorem get?_empty (id : Int32) : empty.get? id = none := rfl

/-- Tables that give the same for each number are the same. -/
theorem ext_get? {s t : ControlTable} (h : ∀ id, s.get? id = t.get? id) : s = t := by
  have hmem (entry : Int32 × List Control) : entry ∈ s.entries ↔ entry ∈ t.entries := by
    rw [← get?_eq_some_iff, ← get?_eq_some_iff, h]
  have : Std.Asymm fun a b : Int32 × List Control => a.1 < b.1 := ⟨fun _ _ => Int32.lt_asymm⟩
  obtain ⟨entries, ascending⟩ := s
  obtain rfl : entries = t.entries := ascending.eq_of_mem_iff t.ascending hmem
  rfl

/-- Leaving out the empty lists leaves what else a table gives. -/
theorem get?_withoutEmpty (table : ControlTable) (id : Int32) :
    table.withoutEmpty.get? id = (table.get? id).filter (!·.isEmpty) := by
  apply Option.ext
  intro controls
  rw [get?_eq_some_iff, Option.filter_eq_some_iff, get?_eq_some_iff]
  exact List.mem_filter

/-- A table without its empty lists has none to leave out. -/
@[simp] theorem withoutEmpty_withoutEmpty (table : ControlTable) :
    table.withoutEmpty.withoutEmpty = table.withoutEmpty := by
  apply ext_get?
  intro id
  rw [get?_withoutEmpty, get?_withoutEmpty, Option.filter_filter]
  simp only [Bool.and_self]

/-! ## Storing what was read -/

/-- Stores controls under their number, unless there are none. -/
def store (table : ControlTable) (entry : Int32 × List Control) : ControlTable :=
  if entry.2.isEmpty then table else table.insert entry.1 entry.2

/-- Whether an entry has controls for a number. -/
def holdsFor (id : Int32) (entry : Int32 × List Control) : Bool :=
  entry.1 == id && !entry.2.isEmpty

/-- Stored controls are found under their number, unless there are none. -/
theorem get?_store (table : ControlTable) (entry : Int32 × List Control) (id : Int32) :
    (table.store entry).get? id = if holdsFor id entry then some entry.2 else table.get? id := by
  rw [store, holdsFor]
  cases entry.2.isEmpty with
  | true => simp
  | false => simp [get?_insert, eq_comm (a := id)]

/-- Storing one entry after the other leaves, for each number, the last list for it that is not
empty. -/
theorem get?_foldl_store (table : ControlTable) (entries : List (Int32 × List Control))
    (id : Int32) : (entries.foldl store table).get? id =
      ((entries.filter (holdsFor id)).getLast?.map (·.2)).or (table.get? id) := by
  induction entries generalizing table with
  | nil => rfl
  | cons entry entries ih =>
      rw [List.foldl_cons, ih, get?_store, List.filter_cons]
      cases hlast : (entries.filter (holdsFor id)).getLast? <;>
        cases hholds : holdsFor id entry <;> simp [List.getLast?_cons, hlast]

/-- Storing entries brings no empty list into a table. -/
theorem get?_foldl_store_ne_nil {table : ControlTable} (h : ∀ id, table.get? id ≠ some [])
    (entries : List (Int32 × List Control)) (id : Int32) :
    (entries.foldl store table).get? id ≠ some [] := by
  rw [get?_foldl_store]
  cases hlast : (entries.filter (holdsFor id)).getLast? with
  | none => exact h id
  | some entry =>
      have hholds := (List.mem_filter.mp (List.mem_of_getLast? hlast)).2
      have hne : entry.2 ≠ [] := by simpa using ((Bool.and_eq_true _ _).mp hholds).2
      intro heq
      exact hne (Option.some.inj heq)

/-- The entries of a table, stored one after the other, are the table without its empty lists. No
two entries have one number, so the last that is kept is the one that is sought. -/
theorem foldl_store_entries (table : ControlTable) :
    table.entries.foldl store empty = table.withoutEmpty := by
  apply ext_get?
  intro id
  rw [get?_foldl_store, get?_empty, Option.or_none, get?_withoutEmpty]
  apply Option.ext
  intro controls
  rw [Option.map_eq_some_iff, Option.filter_eq_some_iff, get?_eq_some_iff]
  constructor
  · rintro ⟨entry, hlast, rfl⟩
    obtain ⟨hmem, hholds⟩ := List.mem_filter.mp (List.mem_of_getLast? hlast)
    obtain ⟨hid, hne⟩ := (Bool.and_eq_true _ _).mp hholds
    rw [← eq_of_beq hid]
    exact ⟨hmem, hne⟩
  · rintro ⟨hmem, hne⟩
    have hkept : (id, controls) ∈ table.entries.filter (holdsFor id) :=
      List.mem_filter.mpr ⟨hmem, by simp [holdsFor, hne]⟩
    cases hlast : (table.entries.filter (holdsFor id)).getLast? with
    | none => exact absurd (List.getLast?_eq_none_iff.mp hlast) (List.ne_nil_of_mem hkept)
    | some entry =>
        obtain ⟨hentry, hholds⟩ := List.mem_filter.mp (List.mem_of_getLast? hlast)
        have hid : entry.1 = id := eq_of_beq ((Bool.and_eq_true _ _).mp hholds).1
        exact ⟨entry, rfl, by rw [eq_of_mem_entries hentry hmem hid]⟩

/-! ## Reading -/

@[simp] theorem encode_tag (table : ControlTable) : table.encode.tag = Tag.sequence := rfl

/-- An entry is read back from its element. -/
theorem decodeEntry_encodeEntry {entry : Int32 × List Control}
    (hs : (encodeEntry entry).value.length < 2 ^ 32) :
    decodeEntry (encodeEntry entry) = .ok entry := by
  have hparts : (encodeEntry entry).asElements =
      .ok [.integer Tag.integer entry.1.toInt, Control.encodeList Tag.sequence entry.2] :=
    asElements_sequence (by simp [Control.encodeList]) hs
  have hcontrols : Control.decodeList (Control.encodeList Tag.sequence entry.2) = .ok entry.2 :=
    Control.decodeList_encodeList (length_value_lt_of_mem (by simp) hs)
  simp only [decodeEntry, hparts, explain_ok, ok_bind, asInt32_integer, hcontrols, pure_eq_ok]

/-- A decoded entry is stored. -/
theorem insertDecoded_eq (table : ControlTable) (element : Element) :
    table.insertDecoded element = (decodeEntry element >>= fun entry => .ok (table.store entry)) :=
  rfl

/-- Entries are stored as they are read, and none is stored if one of them cannot be read. -/
theorem foldlM_insertDecoded_eq_ok_iff {table stored : ControlTable} {elements : List Element} :
    elements.foldlM insertDecoded table = .ok stored ↔
      ∃ entries, elements.mapM decodeEntry = .ok entries ∧ stored = entries.foldl store table := by
  induction elements generalizing table with
  | nil => simp [eq_comm]
  | cons element elements ih =>
      simp only [List.foldlM_cons, List.mapM_cons, insertDecoded_eq, bind_eq_ok_iff, pure_eq_ok,
        Except.ok.injEq]
      constructor
      · rintro ⟨_, ⟨entry, hentry, rfl⟩, hrest⟩
        obtain ⟨entries, hentries, rfl⟩ := ih.mp hrest
        exact ⟨_, ⟨entry, hentry, entries, hentries, rfl⟩, rfl⟩
      · rintro ⟨_, ⟨entry, hentry, entries, hentries, rfl⟩, rfl⟩
        exact ⟨_, ⟨entry, hentry, rfl⟩, ih.mpr ⟨entries, hentries, rfl⟩⟩

/-- What an element holds is stored where all its entries can be read. -/
theorem insertAll_eq_ok_iff {table stored : ControlTable} {element : Element} :
    table.insertAll element = .ok stored ↔
      ∃ elements entries, element.asElements = .ok elements ∧
        elements.mapM decodeEntry = .ok entries ∧ stored = entries.foldl store table := by
  rw [insertAll, explain_bind_eq_ok_iff]
  simp only [foldlM_insertDecoded_eq_ok_iff, exists_and_left]

/-- A table is read back from its element without its empty lists. -/
theorem insertAll_encode {table : ControlTable} (hs : table.encode.value.length < 2 ^ 32) :
    empty.insertAll table.encode = .ok table.withoutEmpty := by
  refine insertAll_eq_ok_iff.mpr ⟨table.entries.map encodeEntry, table.entries, ?_, ?_, ?_⟩
  · exact asElements_sequence_map (fun _ => Ber.isMultiOctet_sequence) hs
  · exact mapM_map_eq_ok fun entry h =>
      decodeEntry_encodeEntry (length_value_lt_of_mem (List.mem_map_of_mem h) hs)
  · exact table.foldl_store_entries.symm

end ControlTable

end DirectoryAccess.Transaction
