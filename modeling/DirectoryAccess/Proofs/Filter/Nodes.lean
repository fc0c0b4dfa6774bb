import DirectoryAccess.Proofs.Filter.Codec

/-!
# Which filters can be read

A filter is a tree of connectives with assertions at its leaves. Those that are read
back from their element are told by their nodes (`Readable`): an assertion about
parts of a value has a part, one with a rule of its own names the rule or an
attribute, and no node stands under more than a hundred connectives. No other filter
comes out of any element (`readable_of_decode`).
-/

namespace DirectoryAccess

open Ber (Element)

namespace Filter

/-! ## Nodes -/

/-- The filters that a connective combines; an assertion has none. -/
def children : Filter → List Filter
  | all filters => filters
  | any filters => filters
  | not filter => [filter]
  | _ => []

/-- Whether an assertion has one of the parts that it may lack. -/
def NamesPart : Filter → Prop
  | substrings _ pattern => pattern.initial ≠ none ∨ pattern.any ≠ [] ∨ pattern.final ≠ none
  | extensible assertion => assertion.rule ≠ none ∨ assertion.description ≠ none
  | _ => True

/-- A node of a filter, with the number of connectives that enclose it there. -/
inductive IsNode (node : Filter) : Nat → Filter → Prop
  /-- The filter itself. -/
  | root : IsNode node 0 node
  /-- A node of a filter that a connective combines. -/
  | child {n : Nat} {filter child : Filter} (hchild : child ∈ filter.children)
      (hnode : IsNode node n child) : IsNode node (n + 1) filter

/-- Each node of the filter can be read where it stands. -/
structure Readable (filter : Filter) : Prop where
  /-- Each assertion has one of the parts that it may lack. -/
  namesPart : ∀ node n, IsNode node n filter → node.NamesPart
  /-- No node stands under more than a hundred connectives. -/
  depth_le : ∀ node n, IsNode node n filter → n ≤ 100

/-- A filter is smaller than one in which it is combined, on which the inductions here rest. -/
theorem sizeOf_lt_of_mem_children {filter child : Filter} (h : child ∈ filter.children) :
    sizeOf child < sizeOf filter := by
  cases filter with
  | all filters =>
      have hlt := List.sizeOf_lt_of_mem (show child ∈ filters from h)
      simp only [all.sizeOf_spec]
      omega
  | any filters =>
      have hlt := List.sizeOf_lt_of_mem (show child ∈ filters from h)
      simp only [any.sizeOf_spec]
      omega
  | not filter =>
      obtain rfl := List.mem_singleton.mp h
      simp only [not.sizeOf_spec]
      omega
  | _ => exact absurd h List.not_mem_nil

/-- What holds of a filter if it holds of those that it combines holds of all filters. -/
theorem induction_children {p : Filter → Prop}
    (h : ∀ filter, (∀ child ∈ filter.children, p child) → p filter) (filter : Filter) : p filter :=
  h filter fun child hchild =>
    have : sizeOf child < sizeOf filter := sizeOf_lt_of_mem_children hchild
    induction_children h child
termination_by sizeOf filter

/-! ## What is complete and what is deep, told by nodes -/

theorem isCompleteAll_iff {filters : List Filter} :
    isCompleteAll filters = true ↔ ∀ filter ∈ filters, filter.isComplete = true := by
  induction filters with
  | nil => simp [isCompleteAll]
  | cons filter filters ih => simp [isCompleteAll, ih]

theorem depthAll_le_iff {filters : List Filter} {m : Nat} :
    depthAll filters ≤ m ↔ ∀ filter ∈ filters, filter.depth + 1 ≤ m := by
  induction filters with
  | nil => simp [depthAll]
  | cons filter filters ih => rw [depthAll, Nat.max_le, ih, List.forall_mem_cons]

/-- A substring assertion has one of its parts exactly if its pattern is not empty. -/
theorem namesPart_substrings {description : String} {pattern : SubstringPattern} :
    (substrings description pattern).NamesPart ↔ pattern.isEmpty = false := by
  obtain ⟨initial, any, final⟩ := pattern
  cases initial <;> cases any <;> cases final <;> simp [NamesPart, SubstringPattern.isEmpty]

/-- An extensible assertion has one of its parts exactly if it names a rule or an attribute. -/
theorem namesPart_extensible {assertion : ExtensibleMatch} :
    (extensible assertion).NamesPart ↔
      (assertion.rule.isSome || assertion.description.isSome) = true := by
  obtain ⟨rule, description, value, dnAttributes⟩ := assertion
  cases rule <;> cases description <;> simp [NamesPart]

theorem isComplete_iff_children {filter : Filter} :
    filter.isComplete = true ↔
      filter.NamesPart ∧ ∀ child ∈ filter.children, child.isComplete = true := by
  cases filter with
  | substrings description pattern => simp [isComplete, namesPart_substrings, children]
  | extensible assertion => simp [isComplete, namesPart_extensible, children]
  | _ => simp [isComplete, NamesPart, children, isCompleteAll_iff]

theorem depth_le_iff_children {filter : Filter} {m : Nat} :
    filter.depth ≤ m ↔ ∀ child ∈ filter.children, child.depth + 1 ≤ m := by
  cases filter <;> simp [depth, children, depthAll_le_iff]

/-- A filter is complete exactly if each of its nodes has one of its parts. -/
theorem isComplete_iff (filter : Filter) :
    filter.isComplete = true ↔ ∀ node n, IsNode node n filter → node.NamesPart := by
  induction filter using induction_children with
  | h filter ih =>
      rw [isComplete_iff_children]
      constructor
      · rintro ⟨hpart, hchildren⟩ node n (_ | ⟨hchild, hnode⟩)
        · exact hpart
        · exact (ih _ hchild).mp (hchildren _ hchild) node _ hnode
      · intro h
        refine ⟨h filter 0 .root, fun child hchild => (ih child hchild).mpr ?_⟩
        intro node n hnode
        exact h node (n + 1) (.child hchild hnode)

/-- A filter is within a depth exactly if none of its nodes stands deeper. -/
theorem depth_le_iff (filter : Filter) (m : Nat) :
    filter.depth ≤ m ↔ ∀ node n, IsNode node n filter → n ≤ m := by
  induction filter using induction_children generalizing m with
  | h filter ih =>
      rw [depth_le_iff_children]
      constructor
      · rintro hchildren node n (_ | ⟨hchild, hnode⟩)
        · exact Nat.zero_le m
        · have hm := hchildren _ hchild
          have hn := (ih _ hchild (m - 1)).mp (by omega) node _ hnode
          omega
      · intro h child hchild
        have hroot := h child 1 (.child hchild .root)
        have hdepth := (ih child hchild (m - 1)).mpr fun node n hnode => by
          have hn := h node (n + 1) (.child hchild hnode)
          omega
        omega

/-- Whether a filter is readable can be decided, by its parts and its depth. -/
theorem readable_iff (filter : Filter) :
    filter.Readable ↔ filter.isComplete = true ∧ filter.depth ≤ maxDepth := by
  rw [isComplete_iff, depth_le_iff]
  exact ⟨fun h => ⟨h.namesPart, h.depth_le⟩, fun h => ⟨h.1, h.2⟩⟩

/-! ## What is read -/

/-- An assertion about the parts of a value is read from a name and the parts of a pattern. -/
theorem decodeSubstrings_eq_ok_iff {element : Element} {filter : Filter} :
    decodeSubstrings element = .ok filter ↔
      ∃ name content description parts pattern, element.asElements = .ok [name, content] ∧
        name.asText = .ok description ∧ content.asElements = .ok parts ∧
        parts.foldlM SubstringPattern.withPart ⟨none, [], none⟩ = .ok pattern ∧
        pattern.isEmpty = false ∧ filter = substrings description pattern := by
  rw [decodeSubstrings, explain_bind_eq_ok_iff]
  constructor
  · rintro ⟨elements, hparts, h⟩
    split at h
    · obtain ⟨description, hname, h⟩ := explain_bind_eq_ok_iff.mp h
      obtain ⟨parts, hcontent, h⟩ := explain_bind_eq_ok_iff.mp h
      obtain ⟨pattern, htaken, h⟩ := bind_eq_ok_iff.mp h
      rw [explain_eq_ok_iff] at h
      obtain ⟨rfl, hempty⟩ := ofSubstrings_eq_ok_iff.mp h
      exact ⟨_, _, _, _, _, hparts, hname, hcontent, htaken, hempty, rfl⟩
    · cases h
  · rintro ⟨name, content, description, parts, pattern, hparts, hname, hcontent, htaken, hempty,
      rfl⟩
    refine ⟨_, hparts, explain_bind_eq_ok_iff.mpr ⟨_, hname, explain_bind_eq_ok_iff.mpr
      ⟨_, hcontent, bind_eq_ok_iff.mpr ⟨_, htaken, ?_⟩⟩⟩⟩
    rw [explain_eq_ok_iff, ofSubstrings_eq_ok_iff]
    exact ⟨rfl, hempty⟩

/-- An assertion with a rule of its own is read from parts that give a value and name the rule or
an attribute. -/
theorem decodeExtensible_eq_ok_iff {element : Element} {filter : Filter} :
    decodeExtensible element = .ok filter ↔
      ∃ parts assertion, element.asElements = .ok parts ∧
        parts.foldlM ExtensibleMatch.Parts.withPart ⟨none, none, none, false⟩ =
          .ok ⟨assertion.rule, assertion.description, some assertion.value,
            assertion.dnAttributes⟩ ∧
        (assertion.rule.isSome || assertion.description.isSome) = true ∧
        filter = extensible assertion := by
  rw [decodeExtensible, explain_bind_eq_ok_iff]
  constructor
  · rintro ⟨parts, hparts, h⟩
    obtain ⟨⟨rule, description, value, dnAttributes⟩, htaken, h⟩ := bind_eq_ok_iff.mp h
    cases value with
    | none => cases h
    | some value =>
        simp only [explain_eq_ok_iff] at h
        obtain ⟨rfl, hnamed⟩ := ofExtensible_eq_ok_iff.mp h
        exact ⟨_, _, hparts, htaken, hnamed, rfl⟩
  · rintro ⟨parts, assertion, hparts, htaken, hnamed, rfl⟩
    refine ⟨parts, hparts, bind_eq_ok_iff.mpr ⟨_, htaken, ?_⟩⟩
    simp only [explain_eq_ok_iff]
    exact ofExtensible_eq_ok_iff.mpr ⟨rfl, hnamed⟩

/-- A filter that an element is, if those that it combines may be nested in fewer than `levels`
levels. -/
inductive Reads (levels : Nat) (element : Element) : Filter → Prop
  /-- A conjunction of what the parts are read as. -/
  | all {parts : List Element} {filters : List Filter} (hparts : element.asElements = .ok parts)
      (hfilters : parts.mapM (decodeNested levels) = .ok filters) :
      Reads levels element (all filters)
  /-- A disjunction of what the parts are read as. -/
  | any {parts : List Element} {filters : List Filter} (hparts : element.asElements = .ok parts)
      (hfilters : parts.mapM (decodeNested levels) = .ok filters) :
      Reads levels element (any filters)
  /-- The negation of what the only part is read as. -/
  | not {inner : Element} {filter : Filter} (hinner : Element.decode element.value = .ok inner)
      (hfilter : decodeNested levels inner = .ok filter) : Reads levels element (not filter)
  /-- An assertion that compares. -/
  | compare {comparison : Comparison} {description : String} {value : Octets}
      (h : decodeAssertion element = .ok (description, value)) :
      Reads levels element (compare comparison description value)
  /-- An assertion about the parts of a value, of which there is one. -/
  | substrings {name pattern : Element} {parts : List Element} {description : String}
      {taken : SubstringPattern} (hparts : element.asElements = .ok [name, pattern])
      (hname : name.asText = .ok description) (hpattern : pattern.asElements = .ok parts)
      (htaken : parts.foldlM SubstringPattern.withPart ⟨none, [], none⟩ = .ok taken)
      (hempty : taken.isEmpty = false) : Reads levels element (substrings description taken)
  /-- An assertion that an attribute is there. -/
  | present {description : String} (h : element.asText = .ok description) :
      Reads levels element (present description)
  /-- An assertion with a rule of its own, which is named or an attribute is. -/
  | extensible {parts : List Element} {rule description : Option String} {value : Octets}
      {dnAttributes : Bool} (hparts : element.asElements = .ok parts)
      (htaken : parts.foldlM ExtensibleMatch.Parts.withPart ⟨none, none, none, false⟩ =
        .ok ⟨rule, description, some value, dnAttributes⟩)
      (hnamed : (rule.isSome || description.isSome) = true) :
      Reads levels element (extensible ⟨rule, description, value, dnAttributes⟩)

/-- What a substring assertion is read as, it is, and it is written under its own type. -/
theorem reads_and_tag_of_decodeSubstrings {levels : Nat} {element : Element} {filter : Filter}
    (h : decodeSubstrings element = .ok filter) :
    Reads levels element filter ∧ filter.tag = substringsTag := by
  obtain ⟨_, _, _, _, _, hparts, hname, hcontent, htaken, hempty, rfl⟩ :=
    decodeSubstrings_eq_ok_iff.mp h
  exact ⟨.substrings hparts hname hcontent htaken hempty, rfl⟩

/-- What an extensible assertion is read as, it is, and it is written under its own type. -/
theorem reads_and_tag_of_decodeExtensible {levels : Nat} {element : Element} {filter : Filter}
    (h : decodeExtensible element = .ok filter) :
    Reads levels element filter ∧ filter.tag = extensibleTag := by
  obtain ⟨_, _, hparts, htaken, hnamed, rfl⟩ := decodeExtensible_eq_ok_iff.mp h
  exact ⟨.extensible hparts htaken hnamed, rfl⟩

/-- All that an element can be read as, by its type, which is then that of the filter. -/
theorem reads_and_tag_of_decodeNested {levels : Nat} {element : Element} {filter : Filter}
    (h : decodeNested (levels + 1) element = .ok filter) :
    Reads levels element filter ∧ filter.tag = element.tag := by
  by_cases hall : element.tag = allTag
  · rw [decodeNested_of_all levels hall] at h
    obtain ⟨parts, hparts, h⟩ := explain_bind_eq_ok_iff.mp h
    obtain ⟨filters, hfilters, h⟩ := bind_eq_ok_iff.mp h
    cases h
    exact ⟨.all hparts hfilters, hall.symm⟩
  by_cases hany : element.tag = anyTag
  · rw [decodeNested_of_any levels hany] at h
    obtain ⟨parts, hparts, h⟩ := explain_bind_eq_ok_iff.mp h
    obtain ⟨filters, hfilters, h⟩ := bind_eq_ok_iff.mp h
    cases h
    exact ⟨.any hparts hfilters, hany.symm⟩
  by_cases hnot : element.tag = notTag
  · rw [decodeNested_of_not levels hnot] at h
    obtain ⟨inner, hinner, h⟩ := explain_bind_eq_ok_iff.mp h
    obtain ⟨filter, hfilter, h⟩ := bind_eq_ok_iff.mp h
    cases h
    exact ⟨.not hinner hfilter, hnot.symm⟩
  by_cases hsubstrings : element.tag = substringsTag
  · rw [decodeNested_of_substrings levels hsubstrings] at h
    rw [hsubstrings]
    exact reads_and_tag_of_decodeSubstrings h
  by_cases hpresent : element.tag = presentTag
  · rw [decodeNested_of_present levels hpresent] at h
    obtain ⟨description, hdescription, h⟩ := explain_bind_eq_ok_iff.mp h
    cases h
    exact ⟨.present hdescription, hpresent.symm⟩
  by_cases hextensible : element.tag = extensibleTag
  · rw [decodeNested_of_extensible levels hextensible] at h
    rw [hextensible]
    exact reads_and_tag_of_decodeExtensible h
  rw [decodeNested, if_neg hall, if_neg hany, if_neg hnot, if_neg hsubstrings, if_neg hpresent,
    if_neg hextensible] at h
  split at h
  · rename_i comparison hcomparison
    obtain ⟨⟨description, value⟩, hassertion, h⟩ := bind_eq_ok_iff.mp h
    cases h
    have hsame := List.find?_some hcomparison
    exact ⟨.compare hassertion, eq_of_beq hsame⟩
  · cases h

/-- An element is what it is read as. -/
theorem reads_of_decodeNested {levels : Nat} {element : Element} {filter : Filter}
    (h : decodeNested (levels + 1) element = .ok filter) : Reads levels element filter :=
  (reads_and_tag_of_decodeNested h).1

/-- A filter that is read has the type of the element that it is read from. -/
theorem tag_of_decode {element : Element} {filter : Filter} (h : decode element = .ok filter) :
    filter.tag = element.tag :=
  (reads_and_tag_of_decodeNested h).2

/-- What an element is read as names its parts, and each filter that it combines is read from some
element. -/
theorem Reads.namesPart_and_children {levels : Nat} {element : Element} {filter : Filter}
    (h : Reads levels element filter) : filter.NamesPart ∧
      ∀ child ∈ filter.children, ∃ part, decodeNested levels part = .ok child := by
  have hmembers {parts : List Element} {filters : List Filter}
      (hfilters : parts.mapM (decodeNested levels) = .ok filters) :
      ∀ child ∈ filters, ∃ part, decodeNested levels part = .ok child := fun child hchild => by
    obtain ⟨part, -, hpart⟩ := exists_of_mem_of_mapM hfilters hchild
    exact ⟨part, hpart⟩
  cases h with
  | all _ hfilters => exact ⟨trivial, hmembers hfilters⟩
  | any _ hfilters => exact ⟨trivial, hmembers hfilters⟩
  | not _ hfilter =>
      refine ⟨trivial, fun child hchild => ?_⟩
      obtain rfl := List.mem_singleton.mp hchild
      exact ⟨_, hfilter⟩
  | compare => exact ⟨trivial, nofun⟩
  | substrings _ _ _ _ hempty => exact ⟨namesPart_substrings.mpr hempty, nofun⟩
  | present => exact ⟨trivial, nofun⟩
  | extensible _ _ hnamed => exact ⟨namesPart_extensible.mpr hnamed, nofun⟩

/-- What is read is complete, and it is nested in fewer levels than are allowed. -/
theorem isComplete_and_depth_of_decodeNested {levels : Nat} {element : Element} {filter : Filter}
    (h : decodeNested levels element = .ok filter) :
    filter.isComplete = true ∧ filter.depth < levels := by
  induction levels generalizing element filter with
  | zero => cases h
  | succ levels ih =>
      obtain ⟨hpart, hchildren⟩ := (reads_of_decodeNested h).namesPart_and_children
      rw [isComplete_iff_children, Nat.lt_succ_iff, depth_le_iff_children]
      refine ⟨⟨hpart, fun child hchild => ?_⟩, fun child hchild => ?_⟩
      · obtain ⟨part, hread⟩ := hchildren child hchild
        exact (ih hread).1
      · obtain ⟨part, hread⟩ := hchildren child hchild
        exact (ih hread).2

/-- A filter that is read from any element is readable. -/
theorem readable_of_decode {element : Element} {filter : Filter}
    (h : decode element = .ok filter) : filter.Readable := by
  obtain ⟨hcomplete, hdepth⟩ := isComplete_and_depth_of_decodeNested h
  exact (readable_iff filter).mpr ⟨hcomplete, Nat.lt_succ_iff.mp hdepth⟩

/-- **Round trip of filters.** Where the value of a filter's element takes fewer than `2 ^ 32`
octets, and so does that of each element inside it, the filter is read back exactly if it is
readable, and refused otherwise. Whatever an element is, a filter that is read from it is
readable. -/
theorem decode_encode_iff_readable :
    (∀ filter : Filter, filter.encode.value.length < 2 ^ 32 →
      (decode filter.encode = .ok filter ↔ filter.Readable) ∧
        (¬ filter.Readable → ∃ failure, decode filter.encode = .error failure)) ∧
    ∀ element filter, decode element = .ok filter → filter.Readable := by
  refine ⟨fun filter hs => ?_, fun element filter => readable_of_decode⟩
  rw [readable_iff, decode_encode_eq_ok_iff hs]
  refine ⟨Iff.rfl, fun hn => ?_⟩
  cases h : decode filter.encode with
  | error failure => exact ⟨failure, rfl⟩
  | ok g =>
      obtain rfl := eq_of_decode_encode hs h
      exact absurd ((decode_encode_eq_ok_iff hs).mp h) hn

/-- A name that contains a letter, under some negations. -/
def negated : Nat → Filter
  | 0 => substrings "cn" ⟨none, [[0x61]], none⟩
  | n + 1 => not (negated n)

/-- A hundred negations are read back and one more is refused. -/
theorem decode_encode_iff_readable_negated :
    (negated 100).encode.value.length < 2 ^ 32 ∧
      decode (negated 100).encode = .ok (negated 100) ∧ (negated 100).Readable ∧
      (negated 101).encode.value.length < 2 ^ 32 ∧
      ∃ failure, decode (negated 101).encode = .error failure := by
  have hs : (negated 100).encode.value.length < 2 ^ 32 := by decide +kernel
  have hsdeep : (negated 101).encode.value.length < 2 ^ 32 := by decide +kernel
  have hreadable : (negated 100).Readable := (readable_iff _).mpr (by decide +kernel)
  have hdeep : ¬ (negated 101).Readable := fun h =>
    absurd ((readable_iff _).mp h) (by decide +kernel)
  obtain ⟨hround, hconverse⟩ := decode_encode_iff_readable
  have hread := (hround _ hs).1.mpr hreadable
  exact ⟨hs, hread, hconverse _ _ hread, hsdeep, (hround _ hsdeep).2 hdeep⟩

end Filter

end DirectoryAccess
