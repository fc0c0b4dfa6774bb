import DirectoryAccess.Proofs.Ber.Reader

/-!
# Reading inside a sequence

A reader that has opened a sequence sees what is left of its value and nothing
else (`Reader.Inside`). There a step takes off the window what `Element.split`
takes off it, the sequence has more elements while the window is not empty, and
it can be closed when the window is. This is why reading piece by piece and
looking at the elements of a value come to the same, which is said with
`Reading.Agrees`; a step that agrees with a look at the next element, whichever
that is, is one of `Reading.Looks`.
-/

namespace DirectoryAccess.Ber

/-! ## Answers of a step -/

/-- What a step comes to is the given answer with the given reader after it; where the answer is
a failure, the step fails too, in whatever way. -/
inductive Reading.Agrees {α : Type} (outcome : Except Failure α × Reader)
    (answer : Except Failure α) (r' : Reader) : Prop
  /-- Both are the same value. -/
  | ok (a : α) (houtcome : outcome = (.ok a, r')) (hanswer : answer = .ok a)
  /-- Both are failures. -/
  | error (failure cause : Failure) (s : Reader) (houtcome : outcome = (.error failure, s))
      (hanswer : answer = .error cause)

namespace Reading.Agrees

variable {α β : Type} {outcome : Except Failure α × Reader} {answer : Except Failure α}
  {r r' r'' : Reader}

/-- The step succeeds exactly where the answer is a value, with that value. -/
theorem eq_ok_iff (h : Agrees outcome answer r') (a : α) (s : Reader) :
    outcome = (.ok a, s) ↔ answer = .ok a ∧ s = r' := by
  cases h with
  | ok b houtcome hanswer =>
      rw [houtcome, hanswer, Prod.mk.injEq, eq_comm (a := s)]
  | error failure cause t houtcome hanswer =>
      rw [houtcome, hanswer]
      simp only [Prod.mk.injEq, reduceCtorEq, false_and]

/-- An answer agrees with itself, whatever reader is left. -/
theorem of_answer (answer : Except Failure α) (r' : Reader) : Agrees (answer, r') answer r' := by
  cases answer with
  | ok a => exact .ok a rfl rfl
  | error failure => exact .error failure failure r' rfl rfl

/-- Explaining a failure changes neither side's success. -/
theorem explain {step : Reading α} (h : Agrees (step r) answer r') (message text : String) :
    Agrees (Reading.explain message step r) (DirectoryAccess.explain text answer) r' := by
  cases h with
  | ok a houtcome hanswer =>
      exact .ok a (explain_of_ok message houtcome) (by rw [hanswer, explain_ok])
  | error failure cause s houtcome hanswer =>
      exact .error _ _ s (explain_of_error message houtcome) (by rw [hanswer, explain_error])

/-- Steps that agree one after the other agree when they are composed. -/
theorem bind {step : Reading α} {f : α → Reading β} {g : α → Except Failure β}
    (h : Agrees (step r) answer r') (hf : ∀ a, Agrees (f a r') (g a) r'') :
    Agrees ((step >>= f) r) (answer >>= g) r'' := by
  cases h with
  | ok a houtcome hanswer =>
      rw [bind_of_ok houtcome, hanswer, ok_bind]
      exact hf a
  | error failure cause s houtcome hanswer =>
      rw [bind_of_error houtcome, hanswer, error_bind]
      exact .error failure cause s rfl rfl

/-- Another answer that is a value exactly where this one is will do as well. -/
theorem congr (h : Agrees outcome answer r') {answer' : Except Failure α}
    (ha : ∀ a, answer' = .ok a ↔ answer = .ok a) : Agrees outcome answer' r' := by
  cases h with
  | ok a houtcome hanswer => exact .ok a houtcome ((ha a).mpr hanswer)
  | error failure cause s houtcome hanswer =>
      cases hanswer' : answer' with
      | ok a =>
          rw [(ha a).mp hanswer'] at hanswer
          cases hanswer
      | error cause' => exact .error failure cause' s houtcome rfl

/-- What is made of both sides agrees where they do. -/
theorem map {step : Reading α} (h : Agrees (step r) answer r') (f : α → β) :
    Agrees ((f <$> step) r) (answer.map f) r' := by
  cases h with
  | ok a houtcome hanswer => exact .ok (f a) (map_of_ok houtcome f) (by rw [hanswer]; rfl)
  | error failure cause s houtcome hanswer =>
      exact .error failure cause s (map_of_error houtcome f) (by rw [hanswer]; rfl)

end Reading.Agrees

/-! ## Looks at the next element -/

/-- A step that comes to what a look at the next element gives, and fails where there is none. -/
structure Reading.Looks {α : Type} (step : Reading α) (look : Element → Except Failure α)
    (r : Reader) : Prop where
  /-- Where there is a next element, the step comes to what the look at it gives. -/
  agrees : ∀ e r', Reading.element r = (.ok e, r') → Reading.Agrees (step r) (look e) r'
  /-- Where there is none, the step fails. -/
  fails : ∀ failure r', Reading.element r = (.error failure, r') →
    ∃ cause s, step r = (.error cause, s)

namespace Reading.Looks

variable {α β : Type} {step : Reading α} {look : Element → Except Failure α} {r : Reader}

/-- A reading that looks at elements still does so with its failures explained, in whatever
words. -/
theorem explain (h : Looks step look r) (message text : String) :
    Looks (Reading.explain message step) (fun e => DirectoryAccess.explain text (look e)) r := by
  constructor
  · intro e r' he
    exact (h.agrees e r' he).explain message text
  · intro failure r' he
    obtain ⟨cause, s, hstep⟩ := h.fails failure r' he
    exact ⟨_, s, explain_of_error message hstep⟩

/-- A reading that looks at elements still does so with its value changed. -/
theorem map (h : Looks step look r) (f : α → β) :
    Looks (f <$> step) (fun e => (look e).map f) r := by
  constructor
  · intro e r' he
    exact (h.agrees e r' he).map f
  · intro failure r' he
    obtain ⟨cause, s, hstep⟩ := h.fails failure r' he
    exact ⟨cause, s, map_of_error hstep f⟩

/-- What is seen can be checked without the reader. -/
theorem check (h : Looks step look r) (f : α → Except Failure β) :
    Looks (step >>= fun a => ofExcept (f a)) (fun e => look e >>= f) r := by
  constructor
  · intro e r' he
    exact (h.agrees e r' he).bind fun a => .of_answer (f a) r'
  · intro failure r' he
    obtain ⟨cause, s, hstep⟩ := h.fails failure r' he
    exact ⟨cause, s, bind_of_error hstep _⟩

/-- To read an element is to look at it. -/
theorem of_element (r : Reader) : Looks element .ok r := by
  constructor
  · intro e r' he
    exact .ok e he rfl
  · intro failure r' he
    exact ⟨failure, r', he⟩

/-- To read an element through a view is to view it. -/
theorem of_elementAs (look : Element → Except Failure α) (r : Reader) :
    Looks (elementAs look) look r :=
  (of_element r).check look

end Reading.Looks

/-! ## Inside a sequence -/

namespace Reader

/-- A reader in the sequence that the outer reader has opened up to the given place. -/
structure Inside (outer : Reader) (stop : Nat) (r : Reader) : Prop where
  /-- The octets are the same. -/
  input_eq : r.input = outer.input
  /-- The limits are the same. -/
  limits_eq : r.limits = outer.limits
  /-- The sequence is the innermost open one. -/
  ends_eq : r.ends = stop :: outer.ends
  /-- The end of the sequence is not passed. -/
  position_le : r.position ≤ stop
  /-- The sequence lies in the octets. -/
  stop_le : stop ≤ r.input.length
  /-- What is left of the sequence is not too large for a value. -/
  size_le : stop - r.position ≤ r.limits.elementSize

namespace Inside

open Reading

variable {outer r : Reader} {stop : Nat} {tag : UInt8}

/-- What a reader in a sequence sees is what is left of it. -/
theorem length_window (h : Inside outer stop r) : r.window.length = stop - r.position := by
  rw [Reader.length_window, limit, h.ends_eq, List.headD_cons, Nat.min_eq_left h.stop_le]

/-- A sequence has more elements while something is left of it. -/
theorem hasMore_eq (h : Inside outer stop r) : r.hasMore ⟨tag, stop⟩ = !r.window.isEmpty := by
  have hlen := h.length_window
  cases hw : r.window with
  | nil =>
      rw [hw, List.length_nil] at hlen
      simp only [hasMore, List.isEmpty_nil, Bool.not_true, decide_eq_false_iff_not]
      omega
  | cons b octets =>
      rw [hw, List.length_cons] at hlen
      simp only [hasMore, List.isEmpty_cons, Bool.not_false, decide_eq_true_eq]
      omega

/-- Where no element can be split off what is left, none is read. -/
theorem element_of_split_error {failure : Failure} (hs : Element.split r.window = .error failure) :
    element r = (.error failure, r) := by
  cases hd : Header.decode r.window with
  | error cause =>
      rw [Element.split_of_decode_error hd] at hs
      cases hs
      exact element_of_header_error (header_of_error hd)
  | ok head =>
      rw [Element.split_of_decode hd] at hs
      cases hs

/-- The element that can be split off what is left is read, and the rest is left then. -/
theorem element_of_split (h : Inside outer stop r) {e : Element} {rest : Octets}
    (hs : Element.split r.window = .ok (e, rest)) :
    ∃ r', element r = (.ok e, r') ∧ Inside outer stop r' ∧ r'.window = rest := by
  cases hd : Header.decode r.window with
  | error cause =>
      rw [Element.split_of_decode_error hd] at hs
      cases hs
  | ok head =>
      have hle := (Header.le_length_of_decode hd).2
      rw [h.length_window] at hle
      have hsize := h.size_le
      have hposition := h.position_le
      rw [Element.split_of_decode hd] at hs
      cases hs
      refine ⟨r.advance (head.width + head.size), element_of_decode hd (by omega),
        ⟨h.input_eq, h.limits_eq, h.ends_eq, ?_, h.stop_le, ?_⟩, advance_window r _⟩
      · rw [advance_position]
        omega
      · rw [advance_position, advance_limits]
        omega

/-- A sequence of which nothing is left can be closed, which leads behind it. -/
theorem closeSequence_of_nil (h : Inside outer stop r) (hw : r.window = []) :
    closeSequence ⟨tag, stop⟩ r = (.ok (), { outer with position := stop }) := by
  have hlen := h.length_window
  rw [hw, List.length_nil] at hlen
  have hposition : r.position = stop := Nat.le_antisymm h.position_le (by omega)
  have hhead : r.ends.head? = some stop := by
    rw [h.ends_eq, List.head?_cons]
  simp only [closeSequence, hhead, hposition, ne_eq, not_true_eq_false, if_false]
  rw [h.input_eq, h.limits_eq, h.ends_eq, List.tail_cons]

/-- A sequence of which something is left cannot be closed. -/
theorem closeSequence_of_ne_nil (h : Inside outer stop r) (hw : r.window ≠ []) :
    ∃ failure, closeSequence ⟨tag, stop⟩ r = (.error failure, r) := by
  have hlen := h.length_window
  have hpos := List.length_pos_iff.mpr hw
  have hhead : r.ends.head? = some stop := by
    rw [h.ends_eq, List.head?_cons]
  refine ⟨Fault.unread (stop - r.position) tag, ?_⟩
  simp only [closeSequence, hhead, ne_eq, not_true_eq_false, if_false]
  rw [if_pos (by omega)]

end Inside

end Reader

/-- The sequence that the header at the front of the window announces is opened, and then its
value is what the reader sees. -/
theorem Reading.openSequence_inside {r : Reader} {head : Header}
    (hdepth : r.ends.length < r.limits.depth) (hd : Header.decode r.window = .ok head)
    (hs : head.size ≤ r.limits.elementSize) (hc : isConstructed head.tag = true) :
    ∃ r', Reading.openSequence r =
        (.ok ⟨head.tag, r.position + head.width + head.size⟩, r') ∧
      Reader.Inside r (r.position + head.width + head.size) r' ∧
      r'.window = (r.window.drop head.width).take head.size := by
  obtain ⟨hwidth, hle⟩ := Header.le_length_of_decode hd
  refine ⟨_, openSequence_of_constructed hdepth hd hs hc, ⟨rfl, rfl, rfl, ?_, ?_, ?_⟩, ?_⟩
  · exact Nat.le_add_right _ _
  · rw [Reader.length_window] at hle
    have hmin := Nat.min_le_right r.limit r.input.length
    change r.position + head.width + head.size ≤ r.input.length
    omega
  · change r.position + head.width + head.size - (r.position + head.width) ≤ r.limits.elementSize
    omega
  · rw [← Reader.take_drop_window hle, Reader.window, List.drop_take]
    change List.take (r.position + head.width + head.size - (r.position + head.width)) _ = _
    rw [Nat.add_sub_cancel_left]
    rfl

/-! ## The parts of a sequence

What some elements are can be said of the first element and of the elements behind
it. A reader in a sequence that reads the first element and goes on agrees with
that, if what it goes on with does.
-/

/-- Reads a part that a sequence may have, or takes the given one, and goes on with it. -/
def Reading.ifMore {α β : Type} (opened : Opened) (step : Reading α) (default : α)
    (next : α → Reading β) : Reading β :=
  Reading.view (·.hasMore opened) >>= fun more =>
    if more then step >>= next else pure default >>= next

/-- The given answer, if no elements are left. -/
def Element.atEnd {β : Type} (b : β) (elements : List Element) : Except Failure β :=
  if elements.isEmpty then .ok b else .error (Fault.trailing elements.length)

namespace Reader.Inside

open Reading

variable {α β : Type} {outer r final : Reader} {stop : Nat} {tag : UInt8}
  {step : Reading α} {look : Element → Except Failure α} {next : α → Reading β}
  {parts : List Element → Except Failure β} {rest : α → List Element → Except Failure β}

/-- A reading that is a look at the next element and goes on agrees with a look at the elements
that are left. -/
theorem agrees_next (hin : Inside outer stop r) (hlook : Looks step look r)
    (hnext : ∀ a r', Inside outer stop r' →
      Agrees (next a r') (Element.elementsOf r'.window >>= rest a) final)
    (hnil : r.window = [] → ∃ cause, parts [] = .error cause)
    (hcons : ∀ e es b, parts (e :: es) = .ok b ↔ (look e >>= fun a => rest a es) = .ok b) :
    Agrees ((step >>= next) r) (Element.elementsOf r.window >>= parts) final := by
  cases hs : Element.split r.window with
  | error failure =>
      obtain ⟨cause, s, hread⟩ := hlook.fails failure r (element_of_split_error hs)
      rw [bind_of_error hread]
      by_cases hw : r.window = []
      · obtain ⟨failure, hparts⟩ := hnil hw
        rw [hw, Element.elementsOf_nil]
        exact .error cause failure s rfl hparts
      · rw [Element.elementsOf_of_error hw hs]
        exact .error cause failure s rfl rfl
  | ok split =>
      obtain ⟨e, left⟩ := split
      obtain ⟨r', he, hin', hw'⟩ := hin.element_of_split hs
      have hboth := (hlook.agrees e r' he).bind fun a => hnext a r' hin'
      rw [Element.elementsOf_of_split hs]
      refine hboth.congr fun b => ?_
      rw [hw']
      cases Element.elementsOf left with
      | error failure =>
          cases look e with
          | ok a => exact Iff.rfl
          | error cause =>
              constructor
              · intro h
                cases h
              · intro h
                cases h
      | ok es => exact hcons e es b

/-- A reading of a part that may be missing agrees with a look at the elements that are left. -/
theorem agrees_ifMore (hin : Inside outer stop r) {default : α} (hlook : Looks step look r)
    (hnext : ∀ a r', Inside outer stop r' →
      Agrees (next a r') (Element.elementsOf r'.window >>= rest a) final)
    (hnil : ∀ b, parts [] = .ok b ↔ rest default [] = .ok b)
    (hcons : ∀ e es b, parts (e :: es) = .ok b ↔ (look e >>= fun a => rest a es) = .ok b) :
    Agrees (ifMore ⟨tag, stop⟩ step default next r) (Element.elementsOf r.window >>= parts)
      final := by
  rw [ifMore, view_bind_apply, hin.hasMore_eq]
  by_cases hw : r.window = []
  · have hlast := hnext default r hin
    rw [hw, Element.elementsOf_nil] at hlast ⊢
    exact hlast.congr hnil
  · obtain ⟨b, octets, hcons'⟩ := List.exists_cons_of_ne_nil hw
    rw [hcons', List.isEmpty_cons, Bool.not_false, if_pos rfl, ← hcons']
    exact hin.agrees_next hlook hnext (fun h => absurd h hw) hcons

/-- A reading that ends the sequence agrees with a look at the elements that are left. -/
theorem agrees_atEnd {last : Reading β} {b : β}
    (hnil : r.window = [] → last r = (.ok b, final))
    (hne : r.window ≠ [] → ∃ failure s, last r = (.error failure, s)) :
    Agrees (last r) (Element.elementsOf r.window >>= Element.atEnd b) final := by
  by_cases hw : r.window = []
  · rw [hw, Element.elementsOf_nil]
    exact .ok b (hnil hw) rfl
  · obtain ⟨failure, s, hlast⟩ := hne hw
    have hparts := Element.elementsOf_ne_ok_nil hw
    cases hes : Element.elementsOf r.window with
    | error cause => exact .error failure cause s hlast rfl
    | ok es =>
        rw [hes] at hparts
        obtain ⟨e, es, rfl⟩ := List.exists_cons_of_ne_nil fun h => hparts (congrArg Except.ok h)
        exact .error failure _ s hlast rfl

end Reader.Inside

end DirectoryAccess.Ber
