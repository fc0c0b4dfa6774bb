import DirectoryAccess.Proofs.Control

/-!
# The grammar of controls

Behind the name of a control stand at most one criticality and then at most one value
(`Control.Grammatical`). Reading makes sure that nothing stands behind the value, but it
does not count the criticalities: it takes any number of them, of which the last counts, and
then at most one value (`Control.withParts_eq_ok_iff`). A control has three parts at most,
so what is read against the grammar has two criticalities and no value, and nothing else is
(`Control.decode_eq_ok_iff_grammatical`).
-/

namespace DirectoryAccess

open Ber (Element Tag)

namespace Control

variable {element : Element} {control taken : Control} {part : Element} {parts : List Element}

/-- An element that is the given truth value, by its type too. -/
def IsFlag (element : Element) (b : Bool) : Prop :=
  element.tag = Tag.boolean ∧ element.asBool = .ok b

/-- The element of the value of a control, if it has one. -/
def valueParts (control : Control) : List Element :=
  control.value.toList.map (Element.mk Tag.octetString)

/-- An element that is the name of a control. -/
def IsName (element : Element) (control : Control) : Prop :=
  (element.asText >>= Oid.ofString) = .ok control.oid

/-- The elements of a control by the grammar. -/
inductive Grammatical (control : Control) : List Element → Prop
  /-- A name and perhaps a value; the control is not critical. -/
  | plain {name : Element} (hname : IsName name control) (hcritical : control.critical = false) :
      Grammatical control (name :: control.valueParts)
  /-- A name, a criticality and perhaps a value. -/
  | flagged {name flag : Element} (hname : IsName name control)
      (hflag : IsFlag flag control.critical) :
      Grammatical control (name :: flag :: control.valueParts)

/-- The elements of a control that is said to be critical or not two times, and has no value. What
is said last is what the control is. -/
inductive FlaggedTwice (control : Control) : List Element → Prop
  /-- A name and two criticalities. -/
  | intro {name first second : Element} {b : Bool} (hname : IsName name control)
      (hfirst : IsFlag first b) (hsecond : IsFlag second control.critical)
      (hvalue : control.value = none) : FlaggedTwice control [name, first, second]

/-- There is at most one part for a value. -/
theorem length_valueParts_le (control : Control) : control.valueParts.length ≤ 1 := by
  rw [valueParts, List.length_map]
  exact Option.length_toList_le

/-- There is no part for a value exactly if there is no value. -/
theorem valueParts_eq_nil_iff : control.valueParts = [] ↔ control.value = none := by
  rw [valueParts, List.map_eq_nil_iff, Option.toList_eq_nil_iff]

/-- The grammar allows two parts in front of the value. -/
theorem Grammatical.length_le (h : Grammatical control parts) :
    parts.length ≤ control.valueParts.length + 2 := by
  cases h with
  | plain => exact Nat.le_succ _
  | flagged => exact Nat.le_refl _

/-! ## Taking parts -/

/-- One part is taken in front of the value: a criticality, in place of the one before it, or the
value. -/
theorem withParts_cons_eq_ok_iff : withParts control (part :: parts) = .ok taken ↔
    control.value = none ∧
      ((∃ b, IsFlag part b ∧ withParts { control with critical := b } parts = .ok taken) ∨
        (part.tag = Tag.octetString ∧
          withParts { control with value := some part.value } parts = .ok taken)) := by
  have hne : Tag.octetString ≠ Tag.boolean := by decide
  rw [withParts]
  cases hvalue : control.value with
  | some value =>
      simp only [Option.isNone_some, Bool.false_eq_true, and_false, if_false, reduceCtorEq,
        false_and]
  | none =>
      by_cases hflag : part.tag = Tag.boolean
      · simp only [hflag, Option.isNone_none, and_self, if_true, explain_bind_eq_ok_iff, IsFlag,
          true_and, hne.symm, false_and, or_false]
      · by_cases hoctets : part.tag = Tag.octetString
        · simp only [hoctets, hne, Option.isNone_none, false_and, if_false, and_self, if_true,
            IsFlag, exists_false, false_or, true_and]
        · simp only [hflag, hoctets, false_and, if_false, reduceCtorEq, IsFlag, exists_false,
            or_self, and_false]

/-- Nothing is taken behind the value. -/
theorem withParts_of_isSome {value : Octets} (h : control.value = some value) :
    withParts control parts = .ok taken ↔ parts = [] ∧ taken = control := by
  cases parts with
  | nil => rw [withParts, Except.ok.injEq, eq_comm (a := taken), and_iff_right rfl]
  | cons part parts =>
      simp only [withParts_cons_eq_ok_iff, h, reduceCtorEq, false_and]

/-- The parts that are taken are criticalities, of which the last counts, and then at most one
value. -/
theorem withParts_eq_ok_iff (h : control.value = none) :
    withParts control parts = .ok taken ↔
      ∃ flags criticals, parts = flags ++ taken.valueParts ∧
        List.Forall₂ IsFlag flags criticals ∧ taken.oid = control.oid ∧
        taken.critical = criticals.getLastD control.critical := by
  obtain ⟨oid, critical, value⟩ := control
  obtain rfl : value = none := h
  induction parts generalizing critical with
  | nil =>
      obtain ⟨oid', critical', value'⟩ := taken
      rw [withParts, Except.ok.injEq]
      constructor
      · rintro ⟨⟩
        exact ⟨[], [], rfl, .nil, rfl, rfl⟩
      · rintro ⟨flags, criticals, hparts, hflags, rfl, hcritical⟩
        obtain ⟨rfl, hvalue⟩ := List.append_eq_nil_iff.mp hparts.symm
        cases hflags
        obtain rfl : critical' = critical := hcritical
        cases value' with
        | none => rfl
        | some value' => cases hvalue
  | cons part parts ih =>
      rw [withParts_cons_eq_ok_iff, and_iff_right rfl]
      constructor
      · rintro (⟨b, hflag, htaken⟩ | ⟨htag, htaken⟩)
        · obtain ⟨flags, criticals, rfl, hflags, hoid, hcritical⟩ := (ih b).mp htaken
          refine ⟨part :: flags, b :: criticals, rfl, .cons hflag hflags, hoid, ?_⟩
          rw [hcritical, List.getLastD_cons]
        · obtain ⟨rfl, rfl⟩ := (withParts_of_isSome rfl).mp htaken
          obtain ⟨tag, octets⟩ := part
          obtain rfl : tag = Tag.octetString := htag
          exact ⟨[], [], rfl, .nil, rfl, rfl⟩
      · rintro ⟨flags, criticals, hparts, hflags, hoid, hcritical⟩
        cases hflags with
        | nil =>
            obtain ⟨oid', critical', value'⟩ := taken
            obtain rfl : oid' = oid := hoid
            obtain rfl : critical' = critical := hcritical
            cases value' with
            | none => cases hparts
            | some value' =>
                cases hparts
                exact .inr ⟨rfl, (withParts_of_isSome rfl).mpr ⟨rfl, rfl⟩⟩
        | @cons flag b flags criticals hflag hflags =>
            obtain ⟨rfl, rfl⟩ := List.cons.inj hparts
            rw [List.getLastD_cons] at hcritical
            exact .inl ⟨b, hflag, (ih b).mpr ⟨flags, criticals, rfl, hflags, hoid, hcritical⟩⟩

/-! ## Controls -/

/-- An element is read as a control where it has a name and at most two further parts, which are
taken. -/
theorem decode_eq_ok_iff_withParts : decode element = .ok control ↔
    ∃ name parts, element.asElements = .ok (name :: parts) ∧ parts.length ≤ 2 ∧
      IsName name control ∧ withParts ⟨control.oid, false, none⟩ parts = .ok control := by
  rw [decode, explain_bind_eq_ok_iff]
  constructor
  · rintro ⟨parts, hparts, h⟩
    split at h
    · cases h
    · rename_i name rest
      split at h
      · cases h
      · rename_i hcount
        obtain ⟨oid, hoid, h⟩ := explain_bind_eq_ok_iff.mp h
        obtain rfl := (fitIn_of_withParts h).1
        rw [List.length_cons] at hcount
        exact ⟨name, rest, hparts, by omega, hoid, h⟩
  · rintro ⟨name, parts, hparts, hcount, hname, h⟩
    refine ⟨name :: parts, hparts, ?_⟩
    have hthree : ¬ 3 < (name :: parts).length := by
      rw [List.length_cons]
      omega
    simp only [if_neg hthree]
    exact explain_bind_eq_ok_iff.mpr ⟨control.oid, hname, h⟩

/-- **What is read as a control.** An element is read as a control exactly if its parts are those of
the control by the grammar, or a name with two criticalities and no value; and the grammar does not
allow the latter. -/
theorem decode_eq_ok_iff_grammatical (element : Element) (control : Control) :
    (decode element = .ok control ↔ ∃ parts, element.asElements = .ok parts ∧
      (Grammatical control parts ∨ FlaggedTwice control parts)) ∧
    ∀ parts, FlaggedTwice control parts → ¬ Grammatical control parts := by
  constructor
  · rw [decode_eq_ok_iff_withParts]
    constructor
    · rintro ⟨name, parts, hparts, hcount, hname, h⟩
      obtain ⟨flags, criticals, rfl, hflags, -, hcritical⟩ := (withParts_eq_ok_iff rfl).mp h
      rw [List.length_append] at hcount
      refine ⟨_, hparts, ?_⟩
      rcases hflags with _ | ⟨hfirst, _ | ⟨hsecond, _ | ⟨hthird, hflags⟩⟩⟩
      · exact .inl (.plain hname hcritical)
      · obtain rfl := hcritical
        exact .inl (.flagged hname hfirst)
      · obtain rfl := hcritical
        have hnil : control.valueParts = [] := by
          simp only [List.length_cons] at hcount
          exact List.length_eq_zero_iff.mp (by omega)
        rw [hnil]
        exact .inr (.intro hname hfirst hsecond (valueParts_eq_nil_iff.mp hnil))
      · simp only [List.length_cons] at hcount
        omega
    · rintro ⟨parts, hparts, hgrammatical | htwice⟩
      · have hvalue := control.length_valueParts_le
        cases hgrammatical with
        | plain hname hcritical =>
            exact ⟨_, _, hparts, Nat.le_succ_of_le hvalue, hname,
              (withParts_eq_ok_iff rfl).mpr ⟨[], [], rfl, .nil, rfl, hcritical⟩⟩
        | flagged hname hflag =>
            exact ⟨_, _, hparts, Nat.succ_le_succ hvalue, hname,
              (withParts_eq_ok_iff rfl).mpr ⟨[_], [_], rfl, .cons hflag .nil, rfl, rfl⟩⟩
      · obtain ⟨hname, hfirst, hsecond, hvalue⟩ := htwice
        refine ⟨_, _, hparts, Nat.le_refl 2, hname, (withParts_eq_ok_iff rfl).mpr
          ⟨[_, _], [_, _], ?_, .cons hfirst (.cons hsecond .nil), rfl, rfl⟩⟩
        rw [valueParts_eq_nil_iff.mpr hvalue, List.append_nil]
  · intro parts htwice hgrammatical
    have hle := hgrammatical.length_le
    obtain ⟨-, -, -, hvalue⟩ := htwice
    rw [valueParts_eq_nil_iff.mpr hvalue] at hle
    exact absurd hle (Nat.not_succ_le_self 2)

/-- A name, a criticality of one and a value. -/
def criticalParts : List Element :=
  [.text Tag.octetString "1.2.3", ⟨Tag.boolean, [0x01]⟩, ⟨Tag.octetString, [0x61]⟩]

/-- A name, a criticality of true and one of false. -/
def contradictoryParts : List Element :=
  [.text Tag.octetString "1.2.3", .boolean Tag.boolean true, .boolean Tag.boolean false]

/-- A control of that name. -/
def ofNumbers (critical : Bool) (value : Option Octets) : Control :=
  ⟨⟨"1.2.3", by decide⟩, critical, value⟩

/-- A critical control with a value is read off its three parts, and one that is told twice to be
critical or not is read although the grammar has no such parts. -/
theorem decode_eq_ok_iff_grammatical_criticalParts :
    decode (.sequence Tag.sequence criticalParts) = .ok (ofNumbers true (some [0x61])) ∧
      FlaggedTwice (ofNumbers false none) contradictoryParts ∧
      ¬ Grammatical (ofNumbers false none) contradictoryParts := by
  have hname (critical : Bool) (value : Option Octets) :
      IsName (.text Tag.octetString "1.2.3") (ofNumbers critical value) := by
    rw [IsName, Ber.Element.asText_text]
    exact Oid.ofString_text ⟨"1.2.3", by decide⟩
  have hparts : (Element.sequence Tag.sequence criticalParts).asElements = .ok criticalParts :=
    Ber.Element.asElements_sequence (by simp [criticalParts]) (by decide +kernel)
  have hgrammatical : Grammatical (ofNumbers true (some [0x61])) criticalParts :=
    .flagged (hname true _) ⟨rfl, rfl⟩
  have htwice : FlaggedTwice (ofNumbers false none) contradictoryParts :=
    .intro (b := true) (hname false _) ⟨rfl, rfl⟩ ⟨rfl, rfl⟩ rfl
  obtain ⟨hdecode, -⟩ := decode_eq_ok_iff_grammatical (.sequence Tag.sequence criticalParts)
    (ofNumbers true (some [0x61]))
  exact ⟨hdecode.mpr ⟨_, hparts, .inl hgrammatical⟩, htwice,
    (decode_eq_ok_iff_grammatical (.sequence Tag.sequence contradictoryParts) _).2 _ htwice⟩

/-- A control that is said to be critical and then not to be is read as one that is not. -/
theorem decode_contradictoryParts :
    decode (.sequence Tag.sequence contradictoryParts) = .ok (ofNumbers false none) ∧
      (Element.sequence Tag.sequence contradictoryParts).asElements = .ok contradictoryParts ∧
      ¬ Grammatical (ofNumbers false none) contradictoryParts := by
  have hparts : (Element.sequence Tag.sequence contradictoryParts).asElements =
      .ok contradictoryParts :=
    Ber.Element.asElements_sequence (by simp [contradictoryParts]) (by decide +kernel)
  refine ⟨by decide +kernel, hparts, fun h => ?_⟩
  exact absurd h.length_le (by decide)

end Control

end DirectoryAccess
