import DirectoryAccess.Proofs.Text.Utf8

/-!
# Where characters begin

The octets of a text tell where its characters begin: the first octet of a
character is never one of its others. So octets that spell a text, and stand in
the octets of another one, stand there as whole characters
(`exists_of_encodeChars_eq`).
-/

namespace DirectoryAccess.Utf8

/-- The octets that spell some characters. -/
def encodeChars (text : List Char) : Octets := text.flatMap String.utf8EncodeChar

@[simp] theorem encodeChars_nil : encodeChars [] = [] := rfl

@[simp] theorem encodeChars_cons (c : Char) (text : List Char) :
    encodeChars (c :: text) = String.utf8EncodeChar c ++ encodeChars text := List.flatMap_cons

@[simp] theorem encodeChars_append (front back : List Char) :
    encodeChars (front ++ back) = encodeChars front ++ encodeChars back := List.flatMap_append

theorem encode_ofList (text : List Char) : encode (String.ofList text) = encodeChars text := by
  rw [encode, String.toList_ofList, encodeChars]

theorem encodeChars_eq_nil_iff {text : List Char} : encodeChars text = [] ↔ text = [] := by
  cases text with
  | nil => exact iff_of_true rfl rfl
  | cons c text =>
      rw [encodeChars_cons]
      exact iff_of_false (List.append_ne_nil_of_left_ne_nil String.utf8EncodeChar_ne_nil _)
        (List.cons_ne_nil c text)

/-- The octets of a character tell where it ends. -/
theorem eq_of_utf8EncodeChar_append {c d : Char} {r s : Octets}
    (h : String.utf8EncodeChar c ++ r = String.utf8EncodeChar d ++ s) : c = d ∧ r = s := by
  have hdecode (c : Char) (r : Octets) :
      (String.utf8EncodeChar c ++ r).toByteArray.utf8DecodeChar? 0 = some c := by
    rw [List.toByteArray_append]
    exact ByteArray.utf8DecodeChar?_utf8EncodeChar_append
  have hchar : c = d := Option.some.inj (by rw [← hdecode c r, h, hdecode d s])
  subst hchar
  exact ⟨rfl, List.append_cancel_left h⟩

/-- A text that is spelt at the beginning of another one stands there. -/
theorem exists_of_encodeChars_append {front text : List Char} {rest : Octets}
    (h : encodeChars front ++ rest = encodeChars text) :
    ∃ back, text = front ++ back ∧ encodeChars back = rest := by
  induction front generalizing text with
  | nil => exact ⟨text, rfl, h.symm⟩
  | cons c front ih =>
      rw [encodeChars_cons, List.append_assoc] at h
      cases text with
      | nil => exact absurd h (List.append_ne_nil_of_left_ne_nil String.utf8EncodeChar_ne_nil _)
      | cons d text =>
          obtain ⟨rfl, hrest⟩ := eq_of_utf8EncodeChar_append (h.trans (encodeChars_cons d text))
          obtain ⟨back, rfl, hback⟩ := ih hrest
          exact ⟨back, rfl, hback⟩

/-- A text begins with an octet with which a character begins. -/
theorem exists_first_of_ne_nil {text : List Char} (h : text ≠ []) :
    ∃ b rest, encodeChars text = b :: rest ∧ b.IsUTF8FirstByte := by
  obtain ⟨c, text, rfl⟩ := List.exists_cons_of_ne_nil h
  obtain ⟨b, others, hchar⟩ := List.exists_cons_of_ne_nil (String.utf8EncodeChar_ne_nil (c := c))
  have hb := UInt8.isUTF8FirstByte_getElem_zero_utf8EncodeChar (c := c)
  simp only [hchar, List.getElem_cons_zero] at hb
  exact ⟨b, others ++ encodeChars text, by rw [encodeChars_cons, hchar, List.cons_append], hb⟩

/-- An octet with which a character begins has whole characters in front of it. -/
theorem exists_boundary {text : List Char} {front rest : Octets} {b : UInt8}
    (hb : b.IsUTF8FirstByte) (h : encodeChars text = front ++ b :: rest) :
    ∃ before behind, text = before ++ behind ∧ encodeChars before = front := by
  induction text generalizing front with
  | nil => exact absurd h.symm (List.append_ne_nil_of_right_ne_nil _ (List.cons_ne_nil b rest))
  | cons c text ih =>
      rw [encodeChars_cons] at h
      rcases List.append_eq_append_iff.mp h with ⟨more, rfl, hmore⟩ | ⟨others, hc, hothers⟩
      · obtain ⟨before, behind, rfl, rfl⟩ := ih hmore
        exact ⟨c :: before, behind, rfl, rfl⟩
      cases others with
      | nil => exact ⟨[c], text, rfl, by rw [encodeChars_cons, hc]; simp⟩
      | cons other others =>
          obtain ⟨rfl, -⟩ := List.cons.inj hothers
          have hlt : front.length < (String.utf8EncodeChar c).length := by
            rw [hc, List.length_append, List.length_cons]
            omega
          have hget : (String.utf8EncodeChar c)[front.length] = b := by
            simp only [hc, List.getElem_append_right (Nat.le_refl _), Nat.sub_self,
              List.getElem_cons_zero]
          have hfront : front.length = 0 :=
            UInt8.isUTF8FirstByte_getElem_utf8EncodeChar.mp (hget ▸ hb)
          exact ⟨[], c :: text, rfl, (List.length_eq_zero_iff.mp hfront).symm⟩

/-- A text that is spelt in another one stands in it. -/
theorem exists_of_encodeChars_eq {text part : List Char} {front rest : Octets} (hne : part ≠ [])
    (h : encodeChars text = front ++ (encodeChars part ++ rest)) :
    ∃ before behind, text = before ++ (part ++ behind) ∧ encodeChars before = front ∧
      encodeChars behind = rest := by
  obtain ⟨b, others, hpart, hb⟩ := exists_first_of_ne_nil hne
  obtain ⟨before, behind, rfl, rfl⟩ :=
    exists_boundary hb (h.trans (by rw [hpart, List.cons_append]))
  rw [encodeChars_append, List.append_cancel_left_eq] at h
  obtain ⟨behind, rfl, hbehind⟩ := exists_of_encodeChars_append h.symm
  exact ⟨before, behind, rfl, rfl, hbehind⟩

/-- A text that is spelt at the end of another one stands there. -/
theorem suffix_of_encodeChars {text part : List Char}
    (h : encodeChars part <:+ encodeChars text) : part <:+ text := by
  by_cases hne : part = []
  · exact hne ▸ List.nil_suffix
  obtain ⟨front, hfront⟩ := h
  obtain ⟨before, behind, rfl, -, hbehind⟩ :=
    exists_of_encodeChars_eq hne (hfront.symm.trans (by rw [List.append_nil]))
  rw [encodeChars_eq_nil_iff.mp hbehind, List.append_nil]
  exact List.suffix_append before part

/-- A text is known by its octets. -/
theorem encodeChars_injective {front back : List Char} (h : encodeChars front = encodeChars back) :
    front = back := by
  obtain ⟨rest, rfl, hrest⟩ := exists_of_encodeChars_append ((List.append_nil _).trans h)
  rw [encodeChars_eq_nil_iff.mp hrest, List.append_nil]

/-! ## Octets of ASCII -/

/-- A character below 128 has the octet of its code. -/
theorem utf8EncodeChar_ofNat {b : UInt8} (h : b < 0x80) :
    String.utf8EncodeChar (Char.ofNat b.toNat) = [b] := by
  have hall : ∀ n < 0x80, String.utf8EncodeChar (Char.ofNat n) = [UInt8.ofNat n] := by decide
  rw [hall b.toNat (UInt8.lt_iff_toNat_lt.mp h), UInt8.ofNat_toNat]

/-- Octets of ASCII spell a text, one character each. -/
theorem exists_encode_of_lt {octets : Octets} (h : ∀ b ∈ octets, b < 0x80) :
    ∃ text, octets = encode text ∧ ∀ c ∈ text.toList, c.toNat < 0x80 := by
  refine ⟨String.ofList (octets.map fun b => Char.ofNat b.toNat), ?_, ?_⟩
  · rw [encode_ofList]
    induction octets with
    | nil => rfl
    | cons b octets ih =>
        obtain ⟨hb, hrest⟩ := List.forall_mem_cons.mp h
        rw [List.map_cons, encodeChars_cons, utf8EncodeChar_ofNat hb, ← ih hrest]
        rfl
  · intro c hc
    rw [String.toList_ofList] at hc
    obtain ⟨b, hb, rfl⟩ := List.mem_map.mp hc
    have hlt : b.toNat < 0x80 := UInt8.lt_iff_toNat_lt.mp (h b hb)
    have hvalid : b.toNat.isValidChar := .inl (by omega)
    change (Char.ofNat b.toNat).val.toNat < 0x80
    rw [toNat_val_ofNat hvalid]
    exact hlt

end DirectoryAccess.Utf8
