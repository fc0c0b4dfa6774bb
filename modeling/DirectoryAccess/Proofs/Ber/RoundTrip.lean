import DirectoryAccess.Proofs.Ber.Shortest

/-!
# Elements and lengths there and back

What an element is written as is read back exactly if its type takes one octet and its
value fewer than `2 ^ 32` (`Element.decode_encode_iff`), because no longer length is
read. What is read is written again as the same octets exactly if the length field was
the shortest (`Element.encode_eq_iff_shortest`), and as fewer otherwise, since all else
in an element is settled by its type and its value.
-/

namespace DirectoryAccess.Ber

/-- A written length is read back as its number, as wide as it was written, exactly where it is
less than `2 ^ 32`. -/
theorem Length.exists_decode_encode_iff {n : Nat} (hn : n < 2 ^ 64) (rest : Octets) :
    (∃ length, decode ((ofNat n).encode ++ rest) = .ok (length, (ofNat n).encode.length) ∧
      length.toNat = n) ↔ n < 2 ^ 32 := by
  constructor
  · rintro ⟨length, hread, -⟩
    by_contra hwide
    rw [decode_encode_append_of_wide (Nat.le_of_not_lt hwide) hn] at hread
    cases hread
  · intro hlt
    exact ⟨ofNat n, decode_encode_append hlt rest, toNat_ofNat n⟩

namespace Element

variable {octets field : Octets} {e e' : Element}

/-! ## Written and read back -/

/-- Octets are an element exactly where they are a header that announces it and its value. -/
theorem decode_eq_ok_iff_announcedBy : decode octets = .ok e ↔
    ∃ head, e.AnnouncedBy head ∧ octets = head ++ e.value := by
  rw [decode_eq_ok_iff, split_eq_ok_iff, List.append_nil]

/-- An element whose octets are read, as whatever it may be, has a type of one octet and no longer
value than is read. -/
theorem writable_of_decode_encode (hn : e.value.length < 2 ^ 64)
    (h : decode e.encode = .ok e') : e.Writable := by
  obtain ⟨head, hhead, hoctets⟩ := decode_eq_ok_iff_announcedBy.mp h
  cases hhead with
  | header field htag hlength hle =>
      constructor
      · rw [encode, List.cons_append, List.cons.injEq] at hoctets
        rw [hoctets.1]
        exact htag
      · by_contra hwide
        obtain ⟨failure, hfailure⟩ := decode_encode_of_wide (Nat.le_of_not_lt hwide) hn
        rw [hfailure] at h
        cases h

/-- An element is read back exactly where it can be written. -/
theorem decode_encode_iff (hn : e.value.length < 2 ^ 64) :
    decode e.encode = .ok e ↔ e.Writable := by
  constructor
  · exact writable_of_decode_encode hn
  · rintro ⟨htag, hs⟩
    exact decode_encode htag hs

/-- The octets of an element that cannot be written are not read as another one. -/
theorem decode_encode_error (hn : e.value.length < 2 ^ 64) (h : ¬ e.Writable) :
    ∃ failure, decode e.encode = .error failure := by
  cases hanswer : decode e.encode with
  | error failure => exact ⟨failure, rfl⟩
  | ok e' => exact absurd (writable_of_decode_encode hn hanswer) h

/-! ## Read and written again -/

/-- What is read is the type, a length field and the value. -/
theorem exists_field_of_decode (h : decode octets = .ok e) :
    ∃ field, octets = e.tag :: (field ++ e.value) ∧
      Length.Definite field e.value.length := by
  obtain ⟨head, hhead, rfl⟩ := decode_eq_ok_iff_announcedBy.mp h
  cases hhead with
  | header field htag hlength hle => exact ⟨field, rfl, hlength⟩

/-- An element is written as given octets exactly if their length field is the shortest. -/
theorem encode_eq_iff_shortest (hoctets : octets = e.tag :: (field ++ e.value))
    (hn : e.value.length < 2 ^ 64) :
    e.encode = octets ↔ Length.Shortest field e.value.length := by
  rw [Length.shortest_iff hn, hoctets, encode, List.cons.injEq, List.append_cancel_right_eq]
  constructor
  · rintro ⟨-, hfield⟩
    exact hfield.symm
  · rintro rfl
    exact ⟨rfl, rfl⟩

/-! ## Exact domains -/

/-- What becomes of an element that is written and read back. -/
structure ReadsBack (e : Element) : Prop where
  /-- As many octets are written as were reckoned. -/
  length_encode : e.encode.length = e.encodedLength
  /-- They are read back as the element exactly if it can be written. -/
  eq_ok_iff : decode e.encode = .ok e ↔
    isMultiOctet e.tag = false ∧ e.value.length < 2 ^ 32
  /-- Otherwise they are refused. -/
  error : ¬ (isMultiOctet e.tag = false ∧ e.value.length < 2 ^ 32) →
    ∃ failure, decode e.encode = .error failure

/-- An element whose value a machine can hold is read back exactly if it can be written. -/
theorem readsBack (hn : e.value.length < 2 ^ 64) : e.ReadsBack where
  length_encode := Element.length_encode e
  eq_ok_iff := by
    rw [decode_encode_iff hn]
    exact ⟨fun h => ⟨h.1, h.2⟩, fun h => ⟨h.1, h.2⟩⟩
  error h := decode_encode_error hn fun hwritable => h ⟨hwritable.1, hwritable.2⟩

/-- **Elements and lengths there and back.** An element with a value that a machine can hold is
read back from its octets exactly if its type takes one octet and its value fewer than `2 ^ 32`.
Octets that are an element are written again as no more, and as the same exactly if the length
field is the shortest. A length is read back, in front of anything, below `2 ^ 32` and refused from
there on. -/
theorem decode_encode_exact :
    (∀ e : Element, e.value.length < 2 ^ 64 → e.ReadsBack) ∧
    (∀ octets e, decode octets = .ok e → e.encode.length ≤ octets.length ∧
      ∃ field, octets = e.tag :: (field ++ e.value) ∧
        (e.encode = octets ↔ Length.Shortest field e.value.length)) ∧
    ∀ n rest, n < 2 ^ 64 →
      (n < 2 ^ 32 → ∃ length,
        Length.decode ((Length.ofNat n).encode ++ rest) =
          .ok (length, (Length.ofNat n).encode.length) ∧ length.toNat = n) ∧
      (2 ^ 32 ≤ n → ∃ failure,
        Length.decode ((Length.ofNat n).encode ++ rest) = .error failure) := by
  refine ⟨fun e => readsBack, ?_, ?_⟩
  · intro octets e h
    obtain ⟨hle, hlt⟩ := length_encode_le_of_decode h
    obtain ⟨field, hoctets, -⟩ := exists_field_of_decode h
    exact ⟨hle, field, hoctets, encode_eq_iff_shortest hoctets (by omega)⟩
  · intro n rest hn
    refine ⟨(Length.exists_decode_encode_iff hn rest).mpr, fun hwide => ?_⟩
    exact ⟨_, Length.decode_encode_append_of_wide hwide hn rest⟩

/-- A text whose length takes an octet more than it needs. -/
def paddedText : Octets := [0x04, 0x81, 0x01, 0x78]

/-- A text with a padded length is read and written again as fewer octets, a type of several octets
is refused, and so is a length of `2 ^ 32`. -/
theorem decode_encode_exact_paddedText :
    decode paddedText = .ok ⟨Tag.octetString, [0x78]⟩ ∧
      encode ⟨Tag.octetString, [0x78]⟩ ≠ paddedText ∧
      decode (encode ⟨Tag.octetString, [0x78]⟩) = .ok ⟨Tag.octetString, [0x78]⟩ ∧
      (∃ failure, decode (encode ⟨0x1F, [0x78]⟩) = .error failure) ∧
      (∃ length, Length.decode ((Length.ofNat 256).encode ++ [0x78]) =
        .ok (length, (Length.ofNat 256).encode.length) ∧ length.toNat = 256) ∧
      ∃ failure, Length.decode ((Length.ofNat (2 ^ 32)).encode ++ [0x78]) = .error failure := by
  obtain ⟨hback, hagain, hlength⟩ := decode_encode_exact
  have hpadded : decode paddedText = .ok ⟨Tag.octetString, [0x78]⟩ :=
    decode_eq_ok_iff_announcedBy.mpr
      ⟨[0x04, 0x81, 0x01], .header [0x81, 0x01] (by decide)
        ⟨_, .long [0x01] (by decide) (by decide), rfl⟩ (by decide), rfl⟩
  refine ⟨hpadded, ?_, (hback _ (by decide)).eq_ok_iff.mpr (by decide),
    (hback _ (by decide)).error (by decide), (hlength 256 _ (by decide)).1 (by decide),
    (hlength (2 ^ 32) _ (by decide)).2 (Nat.le_refl _)⟩
  obtain ⟨-, field, hfield, hiff⟩ := hagain _ _ hpadded
  rw [ne_eq, hiff]
  intro hshortest
  have hle := hshortest.length_le [0x01] ⟨_, .short 0x01 (by decide), rfl⟩
  have hcount := congrArg List.length hfield
  rw [List.length_cons, List.length_append] at hcount
  change 4 = field.length + 1 + 1 at hcount
  change field.length ≤ 1 at hle
  omega

end Element

end DirectoryAccess.Ber
