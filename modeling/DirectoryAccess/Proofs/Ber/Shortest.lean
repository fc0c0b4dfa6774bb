import DirectoryAccess.Proofs.Ber.Splitting

/-!
# Written forms are the shortest

Of all the octets that are read as an element, those that it is written as are the
fewest: its length takes as few octets as hold it (`AnnouncedBy.length_encode_le`),
and so do the numbers inside it. What is made of the parts of an element, in place of
parts that take no fewer octets each, therefore fits in the room of the element
(`Element.FitsIn`, `Element.FitIn`).
-/

namespace DirectoryAccess.Ber

namespace Element

/-- The value of one element is no longer than that of another. -/
def FitsIn (e e' : Element) : Prop := e.value.length ≤ e'.value.length

/-- Some elements take no more octets than others. -/
def FitIn (es es' : List Element) : Prop := (es.flatMap encode).length ≤ (es'.flatMap encode).length

/-- An element that is split off is written with no more octets than are taken for it, and its
value has less than `2 ^ 32` octets. -/
theorem length_encode_le_of_split {octets rest : Octets} {e : Element}
    (h : split octets = .ok (e, rest)) :
    e.encode.length + rest.length ≤ octets.length ∧ e.value.length < 2 ^ 32 := by
  obtain ⟨head, hhead, rfl⟩ := split_eq_ok_iff.mp h
  refine ⟨?_, hhead.writable.length_value_lt⟩
  rw [List.length_append, List.length_append, ← Nat.add_assoc]
  exact Nat.add_le_add_right hhead.length_encode_le rest.length

/-- The only element of some octets is written with no more octets than these. -/
theorem length_encode_le_of_decode {octets : Octets} {e : Element} (h : decode octets = .ok e) :
    e.encode.length ≤ octets.length ∧ e.value.length < 2 ^ 32 :=
  length_encode_le_of_split (decode_eq_ok_iff.mp h)

/-- The elements that some octets are made of are written with no more octets. -/
theorem length_flatMap_le_of_elementsOf {octets : Octets} {es : List Element}
    (h : elementsOf octets = .ok es) : (es.flatMap encode).length ≤ octets.length := by
  induction es generalizing octets with
  | nil => exact Nat.zero_le _
  | cons e es ih =>
      obtain ⟨rest, hs, hrest⟩ := exists_split_of_elementsOf_cons h
      have hsplit := (length_encode_le_of_split hs).1
      have hothers := ih hrest
      rw [List.flatMap_cons, List.length_append]
      omega

/-- The elements that some octets are made of can be written. -/
theorem writable_of_elementsOf {octets : Octets} {es : List Element}
    (h : elementsOf octets = .ok es) : ∀ e ∈ es, e.Writable := by
  induction es generalizing octets with
  | nil => exact nofun
  | cons e es ih =>
      obtain ⟨rest, hs, hrest⟩ := exists_split_of_elementsOf_cons h
      obtain ⟨head, hhead, -⟩ := split_eq_ok_iff.mp hs
      rw [List.forall_mem_cons]
      exact ⟨hhead.writable, ih hrest⟩

/-! ## Lists of elements -/

section FitIn

variable {e e' : Element} {es es' fs fs' : List Element}

/-- An element that fits in the room of another one takes no more octets. -/
theorem FitsIn.length_encode_le (h : e.FitsIn e') : e.encode.length ≤ e'.encode.length := by
  have hlength := Length.length_encode_mono h
  have hvalue : e.value.length ≤ e'.value.length := h
  rw [length_encode, length_encode]
  omega

/-- Elements fit in their own room. -/
theorem FitIn.refl (es : List Element) : FitIn es es := Nat.le_refl _

/-- What fits in the room of elements that fit in another room fits in that one. -/
theorem FitIn.trans (h : FitIn es es') (h' : FitIn es' fs) : FitIn es fs := Nat.le_trans h h'

/-- No elements fit anywhere. -/
theorem FitIn.nil : FitIn [] es := Nat.zero_le _

/-- Elements that fit in two rooms fit in these one after the other. -/
theorem FitIn.append (h : FitIn es es') (h' : FitIn fs fs') : FitIn (es ++ fs) (es' ++ fs') := by
  rw [FitIn, List.flatMap_append, List.flatMap_append, List.length_append, List.length_append]
  exact Nat.add_le_add h h'

/-- An element and others fit in the room of an element and others if each does. -/
theorem FitIn.cons (h : e.FitsIn e') (h' : FitIn es es') : FitIn (e :: es) (e' :: es') := by
  rw [FitIn, List.flatMap_cons, List.flatMap_cons, List.length_append, List.length_append]
  exact Nat.add_le_add h.length_encode_le h'

/-- An element may be left out. -/
theorem FitIn.skip (e' : Element) (h : FitIn es es') : FitIn es (e' :: es') := by
  rw [FitIn, List.flatMap_cons, List.length_append]
  exact Nat.le_trans h (Nat.le_add_left _ _)

/-- Elements fit in the room of as many others if each does in that of the one in its place. -/
theorem FitIn.of_forall₂ (h : List.Forall₂ FitsIn es es') : FitIn es es' := by
  induction h with
  | nil => exact .nil
  | cons he _ ih => exact .cons he ih

/-- Elements that are made of the members of a list, each in the room of the one that the member
was read from. -/
theorem FitIn.map {α : Type} {f : α → Element} {g : Element → Except Failure α} {xs : List α}
    (hfits : ∀ e x, g e = .ok x → (f x).FitsIn e) (h : es.mapM g = .ok xs) :
    FitIn (xs.map f) es := by
  refine .of_forall₂ (List.forall₂_map_left_iff.mpr ?_)
  exact (mapM_eq_ok_iff.mp h).flip.imp fun x e hx => hfits e x hx

/-- Elements that have the values of others fit in their room, whatever type they are given. -/
theorem FitIn.map_value (tag : UInt8) (es : List Element) :
    FitIn ((es.map (·.value)).map (Element.mk tag)) es := by
  refine .of_forall₂ (List.forall₂_map_left_iff.mpr (List.forall₂_map_left_iff.mpr ?_))
  exact List.forall₂_same.mpr fun e _ => Nat.le_refl e.value.length

/-- An element that fits in the place of the last one fits anywhere in front of it. -/
theorem FitIn.insert (h : e.FitsIn e') (es fs : List Element) :
    FitIn (es ++ e :: fs) (es ++ fs ++ [e']) := by
  have hlength := h.length_encode_le
  simp only [FitIn, List.flatMap_append, List.flatMap_cons, List.flatMap_nil, List.append_nil,
    List.length_append]
  omega

/-- A sequence fits in the room of an element if its elements do in that of the element's. -/
theorem FitsIn.sequence {tag : UInt8} (hparts : e'.asElements = .ok es') (h : FitIn es es') :
    (sequence tag es).FitsIn e' :=
  Nat.le_trans h (length_flatMap_le_of_elementsOf hparts)

end FitIn

/-! ## Whole octets -/

section Whole

variable {α : Type} {read : Element → Except Failure α} {write : α → Element} {message : String}
  {octets : Octets} {a : α}

/-- What the only element of some octets is read as is read back from no more octets, if it fits in
the room of that element and is read back from an element of its own. -/
theorem read_encode_of_read (ht : ∀ a, isMultiOctet (write a).tag = false)
    (hfits : ∀ e a, read e = .ok a → (write a).FitsIn e)
    (hback : ∀ e a, e.value.length < 2 ^ 32 → read e = .ok a → read (write a) = .ok a)
    (h : (explain message (decode octets) >>= read) = .ok a) :
    (explain message (decode (write a).encode) >>= read) = .ok a ∧
      (write a).encode.length ≤ octets.length := by
  obtain ⟨e, he, hread⟩ := bind_eq_ok_iff.mp h
  obtain ⟨hlength, hs⟩ := length_encode_le_of_decode (explain_eq_ok_iff.mp he)
  have hfit := hfits e a hread
  refine ⟨?_, Nat.le_trans hfit.length_encode_le hlength⟩
  rw [decode_encode (ht a) (Nat.lt_of_le_of_lt hfit hs), explain_ok, ok_bind]
  exact hback e a hs hread

end Whole

/-! ## Views of a value -/

section Views

variable {e : Element} {tag : UInt8}

/-- The octets of an element that is a text are those of the text. -/
theorem encode_of_asText {s : String} (h : e.asText = .ok s) : Utf8.encode s = e.value := by
  rw [asText, decodeText] at h
  split at h
  · rename_i text hs
    cases h
    exact Utf8.encode_of_decode hs
  · cases h

/-- An element is a text where its octets are those of the text. -/
theorem asText_eq_ok_iff {s : String} : e.asText = .ok s ↔ e.value = Utf8.encode s := by
  refine ⟨fun h => (encode_of_asText h).symm, fun h => ?_⟩
  have hsame : e = text e.tag s := by rw [text, ← h]
  rw [hsame, asText_text]

/-- A text fits in the room of the element that it was read from. -/
theorem FitsIn.text {s : String} (h : e.asText = .ok s) : (text tag s).FitsIn e :=
  Nat.le_of_eq (congrArg List.length (encode_of_asText h))

/-- An element that is a text is the element of that text under its type. -/
theorem text_of_asText {s : String} (h : e.asText = .ok s) (ht : e.tag = tag) :
    text tag s = e := by
  rw [text, encode_of_asText h, ← ht]

/-- An element is that of a text exactly if it has the type and is seen as the text. -/
theorem eq_text_iff {s : String} : e = text tag s ↔ e.tag = tag ∧ e.asText = .ok s := by
  constructor
  · rintro rfl
    exact ⟨rfl, asText_text tag s⟩
  · rintro ⟨htag, htext⟩
    exact (text_of_asText htext htag).symm

/-- A number fits in the room of the element that it was read from. -/
theorem FitsIn.integer {v : Int32} (h : e.asInt32 = .ok v) : (integer tag v.toInt).FitsIn e :=
  length_encodeInteger_le_of_decodeInt32 h

/-- A truth value fits in the room of any element that is seen as one. -/
theorem FitsIn.boolean {b c : Bool} (h : e.asBool = .ok b) : (boolean tag c).FitsIn e := by
  rw [asBool] at h
  split at h
  · rename_i octet hvalue
    rw [FitsIn, hvalue]
    exact Nat.le_refl 1
  · cases h

/-- Texts fit in the room of the element that they were read from. -/
theorem FitsIn.texts {strings : List String} (h : e.asTexts = .ok strings) :
    (texts tag strings).FitsIn e := by
  obtain ⟨parts, hparts, h⟩ := bind_eq_ok_iff.mp h
  exact .sequence hparts (.map (fun _ _ => .text) h)

end Views

end Element

end DirectoryAccess.Ber
