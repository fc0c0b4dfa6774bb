import DirectoryAccess.Proofs.Filter.Shortest

/-!
# The grammar of assertions with optional parts

An assertion about the parts of a value is read from exactly the elements that the grammar
allows: one for what the value begins with, any number for what comes in between and one for
what it ends with, in this order and not all of them missing (`decode_substrings_iff_inOrder`).

An assertion with a rule of its own names the rule, the attribute or both, then gives its
value and then, once, whether the attributes in an entry's name count
(`ExtensibleMatch.Grammatical`). Reading makes sure that the names stand in front of the
value and flags behind it, and that no name and no value is repeated. It neither puts the
names in order nor counts the flags, of which the last is believed; beyond what the grammar
allows it takes this and nothing else (`decode_extensible_iff_taken`).
-/

namespace DirectoryAccess

open Ber (Element)
open Ber.Element (elementsOf asText_eq_ok_iff eq_text_iff)

/-! ## Parts of a value -/

namespace SubstringPattern

variable {pattern : SubstringPattern} {parts : List Element}

/-- The values of the parts that have one type, in order. -/
def valuesOf (tag : UInt8) (parts : List Element) : List Octets :=
  (parts.filter (·.tag == tag)).map Element.value

theorem valuesOf_append (tag : UInt8) (es fs : List Element) :
    valuesOf tag (es ++ fs) = valuesOf tag es ++ valuesOf tag fs := by
  rw [valuesOf, List.filter_append, List.map_append, valuesOf, valuesOf]

theorem valuesOf_map_mk (tag other : UInt8) (values : List Octets) :
    valuesOf tag (values.map (Element.mk other)) = if other = tag then values else [] := by
  have hvalues : valuesOf tag (values.map (Element.mk other)) =
      values.filter fun _ => other == tag := by
    rw [valuesOf, List.filter_map, List.map_map]
    exact List.map_id _
  rw [hvalues]
  by_cases h : other = tag <;> simp [h]

/-- Parts that all have one type are given by their values. -/
theorem exists_eq_map_mk {tag : UInt8} {n : Nat}
    (h : parts.map Element.tag = List.replicate n tag) :
    ∃ values : List Octets, parts = values.map (Element.mk tag) := by
  refine ⟨parts.map Element.value, ?_⟩
  rw [List.map_map]
  refine (List.map_id parts).symm.trans (List.map_congr_left fun part hpart => ?_)
  have htag : part.tag = tag := List.eq_of_mem_replicate (h ▸ List.mem_map_of_mem hpart)
  rw [Function.comp_apply, ← htag, id]

/-- The types of parts in order: at most one for how a value begins, then any number for what comes
in between, then at most one for how it ends. -/
def InOrder (tags : List UInt8) : Prop :=
  ∃ initials anys finals : Nat, initials ≤ 1 ∧ finals ≤ 1 ∧
    tags = List.replicate initials initialTag ++ List.replicate anys anyTag ++
      List.replicate finals finalTag

/-- A pattern that holds what some parts say, no more and no less and in their order. -/
@[mk_iff]
structure Holds (pattern : SubstringPattern) (parts : List Element) : Prop where
  /-- How a value begins. -/
  initial : valuesOf initialTag parts = pattern.initial.toList
  /-- What comes in between. -/
  any : valuesOf anyTag parts = pattern.any
  /-- How it ends. -/
  final : valuesOf finalTag parts = pattern.final.toList

/-- The parts of a pattern are written in their order. -/
theorem inOrder_encode (pattern : SubstringPattern) :
    InOrder (pattern.encode.map Element.tag) := by
  refine ⟨pattern.initial.toList.length, pattern.any.length, pattern.final.toList.length,
    Option.length_toList_le, Option.length_toList_le, ?_⟩
  simp only [encode, List.map_append, List.map_map, Function.comp_def, List.map_const']

/-- What parts in order say is what stands under each of the types. -/
theorem holds_map_mk_iff {initials anys finals : List Octets} :
    pattern.Holds (initials.map (Element.mk initialTag) ++ anys.map (Element.mk anyTag) ++
      finals.map (Element.mk finalTag)) ↔
    initials = pattern.initial.toList ∧ anys = pattern.any ∧ finals = pattern.final.toList := by
  rw [holds_iff]
  simp +decide only [valuesOf_append, valuesOf_map_mk, if_true, if_false, List.nil_append,
    List.append_nil]

/-- The parts that a pattern is written as are those that it holds, in order. -/
theorem eq_encode_iff : parts = pattern.encode ↔
    InOrder (parts.map Element.tag) ∧ pattern.Holds parts := by
  constructor
  · rintro rfl
    exact ⟨inOrder_encode pattern, holds_map_mk_iff.mpr ⟨rfl, rfl, rfl⟩⟩
  · rintro ⟨⟨initials, anys, finals, -, -, htags⟩, hholds⟩
    obtain ⟨front, es, rfl, hfront, hes⟩ := List.map_eq_append_iff.mp htags
    obtain ⟨fs, gs, rfl, hfs, hgs⟩ := List.map_eq_append_iff.mp hfront
    obtain ⟨initials, rfl⟩ := exists_eq_map_mk hfs
    obtain ⟨anys, rfl⟩ := exists_eq_map_mk hgs
    obtain ⟨finals, rfl⟩ := exists_eq_map_mk hes
    obtain ⟨rfl, rfl, rfl⟩ := holds_map_mk_iff.mp hholds
    rfl

/-- Parts are taken in as the pattern that is written as they are. -/
theorem foldlM_withPart_eq_ok_iff :
    parts.foldlM withPart ⟨none, [], none⟩ = .ok pattern ↔ parts = pattern.encode := by
  constructor
  · exact fun h => (encode_of_foldlM_withPart h).symm
  · rintro rfl
    exact foldlM_withPart_encode pattern

/-- A pattern is empty exactly if it is written without parts. -/
theorem isEmpty_eq_false_iff : pattern.isEmpty = false ↔ pattern.encode ≠ [] := by
  obtain ⟨initial, any, final⟩ := pattern
  cases initial <;> cases any <;> cases final <;> simp [isEmpty, encode]

end SubstringPattern

namespace Filter

open SubstringPattern (InOrder)

/-- **Substring assertions are read from their grammar.** An element of their type is read exactly
if it is made of two elements, of which the first is a text and the second is made of parts in order
and not of none; and what is read holds these parts. -/
theorem decode_substrings_iff_inOrder (value : Octets) (filter : Filter) :
    decode ⟨substringsTag, value⟩ = .ok filter ↔
      ∃ name content description parts pattern,
        elementsOf value = .ok [name, content] ∧ name.value = Utf8.encode description ∧
        elementsOf content.value = .ok parts ∧ parts ≠ [] ∧ InOrder (parts.map Element.tag) ∧
        pattern.Holds parts ∧ filter = .substrings description pattern := by
  rw [decode, decodeNested_of_substrings maxDepth rfl, decodeSubstrings_eq_ok_iff]
  constructor
  · rintro ⟨name, content, description, parts, pattern, hparts, hname, hcontent, htaken, hempty,
      rfl⟩
    obtain rfl := SubstringPattern.foldlM_withPart_eq_ok_iff.mp htaken
    obtain ⟨horder, hholds⟩ := SubstringPattern.eq_encode_iff.mp rfl
    exact ⟨name, content, description, _, pattern, hparts, asText_eq_ok_iff.mp hname, hcontent,
      SubstringPattern.isEmpty_eq_false_iff.mp hempty, horder, hholds, rfl⟩
  · rintro ⟨name, content, description, parts, pattern, hparts, hname, hcontent, hne, horder,
      hholds, rfl⟩
    obtain rfl := SubstringPattern.eq_encode_iff.mpr ⟨horder, hholds⟩
    exact ⟨name, content, description, _, pattern, hparts, asText_eq_ok_iff.mpr hname, hcontent,
      SubstringPattern.foldlM_withPart_eq_ok_iff.mpr rfl,
      SubstringPattern.isEmpty_eq_false_iff.mpr hne, rfl⟩

end Filter

/-! ## Parts of an extensible assertion -/

namespace ExtensibleMatch

variable {assertion : ExtensibleMatch} {part : Element} {parts : List Element}

/-- An element that is the given truth value, under the type of the flag. -/
def IsFlag (element : Element) (b : Bool) : Prop :=
  element.tag = dnAttributesTag ∧ element.asBool = .ok b

/-- The element of the rule, if it is named. -/
def ruleParts (assertion : ExtensibleMatch) : List Element :=
  assertion.rule.toList.map (Element.text ruleTag)

/-- The element of the attribute, if it is named. -/
def descriptionParts (assertion : ExtensibleMatch) : List Element :=
  assertion.description.toList.map (Element.text descriptionTag)

/-- The element of the value. -/
def valuePart (assertion : ExtensibleMatch) : Element := ⟨valueTag, assertion.value⟩

/-- Whether the rule or the attribute is named. -/
def IsNamed (assertion : ExtensibleMatch) : Prop :=
  (assertion.rule.isSome || assertion.description.isSome) = true

/-- The elements of an assertion by the grammar: the rule, the attribute, or one and then the other,
the value, and perhaps the flag. -/
inductive Grammatical (assertion : ExtensibleMatch) : List Element → Prop
  /-- Without a flag, which is then false. -/
  | plain (hnamed : assertion.IsNamed) (hflag : assertion.dnAttributes = false) :
      Grammatical assertion
        (assertion.ruleParts ++ assertion.descriptionParts ++ [assertion.valuePart])
  /-- With a flag. -/
  | flagged {flag : Element} (hnamed : assertion.IsNamed)
      (hflag : IsFlag flag assertion.dnAttributes) :
      Grammatical assertion
        (assertion.ruleParts ++ assertion.descriptionParts ++ [assertion.valuePart, flag])

/-- The elements that an assertion is read from. What is named may come in either order, and the
flag any number of times; what the last one says is what counts. -/
inductive Taken (assertion : ExtensibleMatch) : List Element → Prop
  | intro {names flags : List Element} {bs : List Bool} (hnamed : assertion.IsNamed)
      (hnames : names = assertion.ruleParts ++ assertion.descriptionParts ∨
        names = assertion.descriptionParts ++ assertion.ruleParts)
      (hflags : List.Forall₂ IsFlag flags bs)
      (hlast : assertion.dnAttributes = bs.getLastD false) :
      Taken assertion (names ++ assertion.valuePart :: flags)

/-! ### Taking parts -/

namespace Parts

variable {rule rule' description description' : Option String} {value : Octets} {b : Bool}
  {taken : Parts}

/-- Behind the value a flag is taken, in place of the one before it. -/
theorem withPart_of_value : withPart ⟨rule, description, some value, b⟩ part = .ok taken ↔
    ∃ c, IsFlag part c ∧ taken = ⟨rule, description, some value, c⟩ := by
  rw [withPart]
  by_cases hflag : part.tag = dnAttributesTag
  · have hne : dnAttributesTag ≠ ruleTag ∧ dnAttributesTag ≠ descriptionTag ∧
        dnAttributesTag ≠ valueTag := by decide
    simp only [hflag, hne, false_and, if_false, Option.isSome_some, and_self, if_true,
      explain_bind_eq_ok_iff, pure_eq_ok, Except.ok.injEq, IsFlag, true_and, eq_comm (a := taken)]
  · simp only [Option.isNone_some, Bool.false_eq_true, and_false, if_false, hflag, false_and,
      throw_eq_error, reduceCtorEq, IsFlag, exists_false]

/-- Behind the value flags are taken, and the last one counts. -/
theorem foldlM_withPart_of_value :
    parts.foldlM withPart ⟨rule, description, some value, b⟩ = .ok taken ↔
      ∃ bs, List.Forall₂ IsFlag parts bs ∧
        taken = ⟨rule, description, some value, bs.getLastD b⟩ := by
  induction parts generalizing b with
  | nil =>
      rw [List.foldlM_nil, pure_eq_ok, Except.ok.injEq]
      simp only [List.forall₂_nil_left_iff, exists_eq_left, List.getLastD_nil, eq_comm]
  | cons part parts ih =>
      rw [List.foldlM_cons, bind_eq_ok_iff]
      simp only [withPart_of_value]
      constructor
      · rintro ⟨next, ⟨c, hflag, rfl⟩, h⟩
        obtain ⟨bs, hflags, rfl⟩ := ih.mp h
        exact ⟨c :: bs, .cons hflag hflags, by rw [List.getLastD_cons]⟩
      · rintro ⟨bs, hflags, rfl⟩
        cases hflags with
        | @cons _ c _ bs hflag hflags =>
            exact ⟨_, ⟨c, hflag, rfl⟩, ih.mpr ⟨bs, hflags, by rw [List.getLastD_cons]⟩⟩

/-- What the names `rule` and `description` become when some elements are taken in front of the
value: each of them is named once. -/
inductive Names : Option String → Option String → List Element → Option String →
    Option String → Prop
  /-- Nothing is taken. -/
  | nil (rule description : Option String) : Names rule description [] rule description
  /-- The rule is taken. -/
  | rule (name : String) {description rule' description' : Option String} {parts : List Element}
      (h : Names (some name) description parts rule' description') :
      Names none description (.text ruleTag name :: parts) rule' description'
  /-- The attribute is taken. -/
  | description (name : String) {rule rule' description' : Option String} {parts : List Element}
      (h : Names rule (some name) parts rule' description') :
      Names rule none (.text descriptionTag name :: parts) rule' description'

/-- In front of the value a name is taken that is not there yet, or the value. -/
theorem withPart_of_noValue : withPart ⟨rule, description, none, b⟩ part = .ok taken ↔
    (rule = none ∧ ∃ name, part = .text ruleTag name ∧
        taken = ⟨some name, description, none, b⟩) ∨
      (description = none ∧ ∃ name, part = .text descriptionTag name ∧
        taken = ⟨rule, some name, none, b⟩) ∨
      (part = ⟨valueTag, part.value⟩ ∧ taken = ⟨rule, description, some part.value, b⟩) := by
  have hvalue : part = ⟨valueTag, part.value⟩ ↔ part.tag = valueTag :=
    ⟨congrArg Element.tag, fun h => h ▸ rfl⟩
  have hne : ruleTag ≠ descriptionTag ∧ ruleTag ≠ valueTag ∧ descriptionTag ≠ valueTag := by
    decide
  simp only [withPart, eq_text_iff, hvalue, Option.isNone_none, Option.isSome_none, and_true,
    Bool.false_eq_true, and_false, if_false, Option.isNone_iff_eq_none]
  by_cases hrule : part.tag = ruleTag
  · cases rule <;> simp [hrule, hne, explain_bind_eq_ok_iff, eq_comm (a := taken)]
  by_cases hdescription : part.tag = descriptionTag
  · cases description <;>
      simp [hdescription, hne, hne.1.symm, explain_bind_eq_ok_iff, eq_comm (a := taken)]
  by_cases hpart : part.tag = valueTag
  · simp [hpart, hne.2.1.symm, hne.2.2.symm, eq_comm (a := taken)]
  · simp [hrule, hdescription, hpart]

/-- The value is taken behind names, and flags behind it. -/
theorem foldlM_withPart_of_noValue :
    parts.foldlM withPart ⟨rule, description, none, false⟩ =
        .ok ⟨rule', description', some value, b⟩ ↔
      ∃ names flags bs, parts = names ++ ⟨valueTag, value⟩ :: flags ∧
        Names rule description names rule' description' ∧ List.Forall₂ IsFlag flags bs ∧
        b = bs.getLastD false := by
  induction parts generalizing rule description with
  | nil =>
      rw [List.foldlM_nil]
      refine ⟨nofun, ?_⟩
      rintro ⟨names, flags, bs, hparts, -⟩
      cases names <;> cases hparts
  | cons part parts ih =>
      rw [List.foldlM_cons, bind_eq_ok_iff]
      constructor
      · rintro ⟨next, hnext, h⟩
        obtain ⟨rfl, name, rfl, rfl⟩ | ⟨rfl, name, rfl, rfl⟩ | ⟨hpart, rfl⟩ :=
          withPart_of_noValue.mp hnext
        · obtain ⟨names, flags, bs, rfl, hnames, hflags⟩ := ih.mp h
          exact ⟨_ :: names, flags, bs, rfl, .rule name hnames, hflags⟩
        · obtain ⟨names, flags, bs, rfl, hnames, hflags⟩ := ih.mp h
          exact ⟨_ :: names, flags, bs, rfl, .description name hnames, hflags⟩
        · obtain ⟨bs, hflags, htaken⟩ := foldlM_withPart_of_value.mp h
          cases htaken
          exact ⟨[], parts, bs, congrArg (· :: parts) hpart, .nil _ _, hflags, rfl⟩
      · rintro ⟨names, flags, bs, hparts, hnames, hflags, rfl⟩
        cases hnames with
        | nil =>
            obtain ⟨rfl, rfl⟩ := List.cons.inj hparts
            exact ⟨_, withPart_of_noValue.mpr (.inr (.inr ⟨rfl, rfl⟩)),
              foldlM_withPart_of_value.mpr ⟨bs, hflags, rfl⟩⟩
        | rule name hnames =>
            obtain ⟨rfl, rfl⟩ := List.cons.inj hparts
            exact ⟨_, withPart_of_noValue.mpr (.inl ⟨rfl, name, rfl, rfl⟩),
              ih.mpr ⟨_, flags, bs, rfl, hnames, hflags, rfl⟩⟩
        | description name hnames =>
            obtain ⟨rfl, rfl⟩ := List.cons.inj hparts
            exact ⟨_, withPart_of_noValue.mpr (.inr (.inl ⟨rfl, name, rfl, rfl⟩)),
              ih.mpr ⟨_, flags, bs, rfl, hnames, hflags, rfl⟩⟩

/-- From nothing, names are taken in either order, and none is taken again. -/
theorem names_iff {names : List Element} :
    Names none none names assertion.rule assertion.description ↔
      names = assertion.ruleParts ++ assertion.descriptionParts ∨
      names = assertion.descriptionParts ++ assertion.ruleParts := by
  obtain ⟨rule, description, value, dnAttributes⟩ := assertion
  constructor
  · intro h
    rcases h with _ | ⟨name, _ | _ | ⟨name', _ | _ | _⟩⟩ | ⟨name, _ | ⟨name', _ | _ | _⟩ | _⟩
    · exact .inl rfl
    · exact .inl rfl
    · exact .inl rfl
    · exact .inl rfl
    · exact .inr rfl
  · cases rule <;> cases description <;> rintro (rfl | rfl)
    · exact .nil none none
    · exact .nil none none
    · exact .description _ (.nil _ _)
    · exact .description _ (.nil _ _)
    · exact .rule _ (.nil _ _)
    · exact .rule _ (.nil _ _)
    · exact .rule _ (.description _ (.nil _ _))
    · exact .description _ (.rule _ (.nil _ _))

end Parts

/-- The types of the parts of an assertion, in the order of the grammar. -/
def partTags : List UInt8 := [ruleTag, descriptionTag, valueTag, dnAttributesTag]

/-- The names in an extensible assertion are written with the rule in front of the description. -/
theorem sublist_map_tag_names (assertion : ExtensibleMatch) :
    ((assertion.ruleParts ++ assertion.descriptionParts).map Element.tag).Sublist
      [ruleTag, descriptionTag] := by
  have hrule : (assertion.ruleParts.map Element.tag).Sublist [ruleTag] := by
    rw [ruleParts]
    cases assertion.rule with
    | none => exact List.nil_sublist _
    | some name => exact List.Sublist.refl _
  have hdescription : (assertion.descriptionParts.map Element.tag).Sublist [descriptionTag] := by
    rw [descriptionParts]
    cases assertion.description with
    | none => exact List.nil_sublist _
    | some name => exact List.Sublist.refl _
  rw [List.map_append]
  exact hrule.append hdescription

/-- If an attribute in front of the rule is in order, then one of them is not named. -/
theorem names_eq_of_pairwise
    (h : ((assertion.descriptionParts ++ assertion.ruleParts).map Element.tag).Pairwise (· < ·)) :
    assertion.descriptionParts ++ assertion.ruleParts =
      assertion.ruleParts ++ assertion.descriptionParts := by
  rw [ruleParts, descriptionParts] at h ⊢
  cases hrule : assertion.rule with
  | none => exact List.append_nil _
  | some rule =>
      cases hdescription : assertion.description with
      | none => rfl
      | some description =>
          rw [hrule, hdescription] at h
          exact absurd h (by decide : ¬ [descriptionTag, ruleTag].Pairwise (· < ·))

/-- The grammar allows what is taken and has its types in ascending order, each of them once:
neither two names in the other order nor two flags. -/
theorem grammatical_iff : Grammatical assertion parts ↔
    Taken assertion parts ∧ (parts.map Element.tag).Sublist partTags := by
  constructor
  · intro h
    have hnames := assertion.sublist_map_tag_names
    cases h with
    | plain hnamed hflag =>
        refine ⟨.intro hnamed (.inl rfl) .nil hflag, ?_⟩
        rw [List.map_append]
        exact hnames.append (List.sublist_append_left [valueTag] [dnAttributesTag])
    | flagged hnamed hflag =>
        refine ⟨.intro hnamed (.inl rfl) (.cons hflag .nil) rfl, ?_⟩
        rw [List.map_append, List.map_cons, List.map_cons, hflag.1]
        exact hnames.append (List.Sublist.refl _)
  · rintro ⟨@⟨names, flags, bs, hnamed, hnames, hflags, hlast⟩, hsublist⟩
    have hsorted : (List.map Element.tag (names ++ assertion.valuePart :: flags)).Pairwise
        (· < ·) := .sublist hsublist (by decide)
    rw [List.map_append, List.pairwise_append] at hsorted
    obtain ⟨hfront, hback, -⟩ := hsorted
    have hsame : names = assertion.ruleParts ++ assertion.descriptionParts := by
      rcases hnames with rfl | rfl
      · rfl
      · exact names_eq_of_pairwise hfront
    subst hsame
    rcases hflags with _ | ⟨hfirst, _ | ⟨hsecond, hflags⟩⟩
    · exact .plain hnamed hlast
    · refine .flagged hnamed ?_
      rw [hlast]
      exact hfirst
    · rw [List.map_cons, List.map_cons, List.map_cons, hfirst.1, hsecond.1] at hback
      have hlt := List.rel_of_pairwise_cons hback.of_cons List.mem_cons_self
      exact absurd hlt (UInt8.lt_irrefl dnAttributesTag)

/-- An assertion is read from the parts that are taken as it. -/
theorem foldlM_withPart_and_isNamed_iff :
    parts.foldlM Parts.withPart ⟨none, none, none, false⟩ =
        .ok ⟨assertion.rule, assertion.description, some assertion.value,
          assertion.dnAttributes⟩ ∧ assertion.IsNamed ↔ Taken assertion parts := by
  rw [Parts.foldlM_withPart_of_noValue]
  constructor
  · rintro ⟨⟨names, flags, bs, rfl, hnames, hflags, hlast⟩, hnamed⟩
    exact .intro hnamed (Parts.names_iff.mp hnames) hflags hlast
  · rintro ⟨hnamed, hnames, hflags, hlast⟩
    exact ⟨⟨_, _, _, rfl, Parts.names_iff.mpr hnames, hflags, hlast⟩, hnamed⟩

end ExtensibleMatch

namespace Filter

open ExtensibleMatch (Grammatical Taken partTags)

/-- **What is read as an extensible assertion.** An element of its type is read exactly if it is
made of elements that are taken as the assertion, and the grammar allows these exactly if their
types are in order, each of them once. -/
theorem decode_extensible_iff_taken (value : Octets) (filter : Filter) :
    (decode ⟨extensibleTag, value⟩ = .ok filter ↔ ∃ parts assertion,
      elementsOf value = .ok parts ∧ Taken assertion parts ∧ filter = .extensible assertion) ∧
    ∀ assertion parts, Grammatical assertion parts ↔
      Taken assertion parts ∧ (parts.map Element.tag).Sublist partTags := by
  refine ⟨?_, fun assertion parts => ExtensibleMatch.grammatical_iff⟩
  rw [decode, decodeNested_of_extensible maxDepth rfl, decodeExtensible_eq_ok_iff]
  constructor
  · rintro ⟨parts, assertion, hparts, htaken, hnamed, rfl⟩
    exact ⟨parts, assertion, hparts,
      ExtensibleMatch.foldlM_withPart_and_isNamed_iff.mp ⟨htaken, hnamed⟩, rfl⟩
  · rintro ⟨parts, assertion, hparts, htaken, rfl⟩
    obtain ⟨hfold, hnamed⟩ := ExtensibleMatch.foldlM_withPart_and_isNamed_iff.mpr htaken
    exact ⟨parts, assertion, hparts, hfold, hnamed, rfl⟩

/-- A rule and a value, with a flag of true and then one of false. -/
def contradictoryFlags : List Element :=
  [.text ExtensibleMatch.ruleTag "1.2", ⟨ExtensibleMatch.valueTag, [0x61]⟩,
    .boolean ExtensibleMatch.dnAttributesTag true, .boolean ExtensibleMatch.dnAttributesTag false]

/-- A value behind an attribute and then a rule. -/
def swappedNames : List Element :=
  [.text ExtensibleMatch.descriptionTag "cn", .text ExtensibleMatch.ruleTag "1.2",
    ⟨ExtensibleMatch.valueTag, [0x61]⟩]

/-- A flag that says first that the attributes in an entry's name count and then that they do not is
read as one that says that they do not, and an attribute in front of a rule is read as one
behind it. -/
theorem decode_contradictoryFlags_swappedNames :
    (decode (.sequence extensibleTag contradictoryFlags) =
        .ok (.extensible ⟨some "1.2", none, [0x61], false⟩) ∧
      elementsOf (Element.sequence extensibleTag contradictoryFlags).value =
        .ok contradictoryFlags ∧
      ¬ (contradictoryFlags.map Element.tag).Sublist partTags) ∧
    (decode (.sequence extensibleTag swappedNames) =
        .ok (.extensible ⟨some "1.2", some "cn", [0x61], false⟩) ∧
      elementsOf (Element.sequence extensibleTag swappedNames).value = .ok swappedNames ∧
      ¬ (swappedNames.map Element.tag).Sublist partTags) := by
  refine ⟨⟨?_, ?_, by decide⟩, ?_, ?_, by decide⟩
  all_goals decide +kernel

end Filter

end DirectoryAccess
