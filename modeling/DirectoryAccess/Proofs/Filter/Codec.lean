import DirectoryAccess.Filter.Codec
import DirectoryAccess.Proofs.Ber.Element

/-!
# Filters read back

What is read from a filter's element is that filter and no other. It can be read
unless an assertion names no part at all or the filter is nested too deeply, which
is what the reader checks (`decodeNested_encode`).
-/

namespace DirectoryAccess

open Ber (Element Tag isMultiOctet)
open Ber.Element

/-- The parts of a pattern have types of one octet. -/
theorem SubstringPattern.isMultiOctet_encode (pattern : SubstringPattern) :
    ∀ t ∈ pattern.encode.map Element.tag, isMultiOctet t = false := by
  have htags : isMultiOctet initialTag = false ∧ isMultiOctet anyTag = false ∧
      isMultiOctet finalTag = false := by decide
  intro t ht
  simp only [encode, List.map_append, List.map_map, List.mem_append, List.mem_map] at ht
  rcases ht with (⟨value, -, rfl⟩ | ⟨value, -, rfl⟩) | ⟨value, -, rfl⟩
  · exact htags.1
  · exact htags.2.1
  · exact htags.2.2

/-- The parts of an extensible assertion have types of one octet. -/
theorem ExtensibleMatch.isMultiOctet_encode (assertion : ExtensibleMatch) :
    ∀ t ∈ assertion.encode.map Element.tag, isMultiOctet t = false := by
  have htags : isMultiOctet ruleTag = false ∧ isMultiOctet descriptionTag = false ∧
      isMultiOctet valueTag = false ∧ isMultiOctet dnAttributesTag = false := by decide
  intro t ht
  simp only [encode, List.map_append, List.map_map, List.mem_append, List.mem_map,
    List.mem_singleton] at ht
  rcases ht with ((⟨rule, -, rfl⟩ | ⟨description, -, rfl⟩) | ⟨value, rfl, rfl⟩) | ⟨flag, hf, rfl⟩
  · exact htags.1
  · exact htags.2.1
  · exact htags.2.2.1
  · split at hf
    · rw [List.mem_singleton.mp hf]
      exact htags.2.2.2
    · exact absurd hf List.not_mem_nil

/-- The parts of a pattern are taken in again, in their order. -/
theorem SubstringPattern.foldlM_withPart_encode (pattern : SubstringPattern) :
    pattern.encode.foldlM withPart ⟨none, [], none⟩ = .ok pattern := by
  obtain ⟨initial, any, final⟩ := pattern
  have hmiddle (start : Option Octets) (taken any : List Octets) :
      (any.map (Element.mk anyTag)).foldlM withPart ⟨start, taken, none⟩ =
        .ok ⟨start, taken ++ any, none⟩ := by
    induction any generalizing taken with
    | nil => rw [List.append_nil]; rfl
    | cons value any ih =>
        rw [List.map_cons, List.foldlM_cons]
        have hstep : withPart ⟨start, taken, none⟩ ⟨anyTag, value⟩ =
            .ok ⟨start, taken ++ [value], none⟩ := by
          simp [withPart, anyTag, initialTag]
        rw [hstep, ok_bind, ih, List.append_assoc, List.singleton_append]
  have hinitial : (initial.toList.map (Element.mk initialTag)).foldlM withPart ⟨none, [], none⟩ =
      .ok ⟨initial, [], none⟩ := by
    cases initial <;> rfl
  have hfinal : (final.toList.map (Element.mk finalTag)).foldlM withPart ⟨initial, any, none⟩ =
      .ok ⟨initial, any, final⟩ := by
    cases final with
    | none => rfl
    | some value => simp [withPart, anyTag, initialTag, finalTag]
  rw [encode, List.foldlM_append, List.foldlM_append, hinitial, ok_bind, hmiddle, ok_bind,
    List.nil_append, hfinal]

/-- The parts of an extensible assertion are taken in again, in their order. -/
theorem ExtensibleMatch.foldlM_withPart_encode (assertion : ExtensibleMatch) :
    assertion.encode.foldlM Parts.withPart ⟨none, none, none, false⟩ =
      .ok ⟨assertion.rule, assertion.description, some assertion.value,
        assertion.dnAttributes⟩ := by
  obtain ⟨rule, description, value, dnAttributes⟩ := assertion
  cases rule <;> cases description <;> cases dnAttributes <;>
    simp [encode, Parts.withPart, ruleTag, descriptionTag, valueTag, dnAttributesTag]

namespace Filter

/-! ## What can be read back -/

mutual

/-- Whether each assertion in a filter names at least one of the parts that it may lack. -/
def isComplete : Filter → Bool
  | all filters => isCompleteAll filters
  | any filters => isCompleteAll filters
  | not filter => filter.isComplete
  | compare _ _ _ => true
  | substrings _ pattern => !pattern.isEmpty
  | present _ => true
  | extensible assertion => assertion.rule.isSome || assertion.description.isSome

/-- Whether each assertion in some filters names at least one of the parts that it may lack. -/
def isCompleteAll : List Filter → Bool
  | [] => true
  | filter :: filters => filter.isComplete && isCompleteAll filters

end

mutual

/-- The most connectives that enclose a node of a filter. -/
def depth : Filter → Nat
  | all filters => depthAll filters
  | any filters => depthAll filters
  | not filter => filter.depth + 1
  | _ => 0

/-- The most connectives that enclose a node of the filters of one connective, itself included. -/
def depthAll : List Filter → Nat
  | [] => 0
  | filter :: filters => max (filter.depth + 1) (depthAll filters)

end

/-! ## The parts of an element -/

/-- A filter is written under the type by which it is told from the others. -/
theorem tag_encode (filter : Filter) : filter.encode.tag = filter.tag := by
  cases filter <;> rw [encode] <;> rfl

/-- The type of a filter's element takes one octet. -/
theorem isMultiOctet_tag_encode (filter : Filter) : isMultiOctet filter.encode.tag = false := by
  rw [tag_encode]
  cases filter with
  | all filters => exact (by decide : isMultiOctet allTag = false)
  | any filters => exact (by decide : isMultiOctet anyTag = false)
  | not filter => exact (by decide : isMultiOctet notTag = false)
  | compare comparison description value =>
      change isMultiOctet comparison.tag = false
      cases comparison <;> decide
  | substrings description pattern => exact (by decide : isMultiOctet substringsTag = false)
  | present description => exact (by decide : isMultiOctet presentTag = false)
  | extensible assertion => exact (by decide : isMultiOctet extensibleTag = false)

/-- The filters that a connective combines are written one after another. -/
theorem encodeAll_eq_map (filters : List Filter) : encodeAll filters = filters.map encode := by
  induction filters with
  | nil => rfl
  | cons filter filters ih => rw [encodeAll, ih, List.map_cons]

/-- The filters of a connective are read back as its elements, each of them shorter than it. -/
theorem asElements_encodeAll {tag : UInt8} {filters : List Filter}
    (hs : (Element.sequence tag (encodeAll filters)).value.length < 2 ^ 32) :
    (Element.sequence tag (encodeAll filters)).asElements = .ok (encodeAll filters) ∧
      ∀ element ∈ encodeAll filters, element.value.length < 2 ^ 32 := by
  refine ⟨?_, fun element h => length_value_lt_of_mem h hs⟩
  rw [encodeAll_eq_map] at hs ⊢
  exact asElements_sequence_map isMultiOctet_tag_encode hs

/-- An assertion that compares is read back from its element. -/
theorem decodeAssertion_encode {comparison : Comparison} {description : String} {value : Octets}
    (hs : (compare comparison description value).encode.value.length < 2 ^ 32) :
    decodeAssertion (compare comparison description value).encode = .ok (description, value) := by
  have hparts : (compare comparison description value).encode.asElements =
      .ok [.text Tag.octetString description, ⟨Tag.octetString, value⟩] :=
    asElements_sequence (by simp) hs
  simp only [decodeAssertion, hparts, explain_ok, ok_bind, asText_text, pure_eq_ok]

/-- An assertion about the parts of a value is read back where it names one. -/
theorem decodeSubstrings_encode {description : String} {pattern : SubstringPattern}
    (hs : (substrings description pattern).encode.value.length < 2 ^ 32) :
    decodeSubstrings (substrings description pattern).encode =
      explain "invalid substring filter" (ofSubstrings description pattern) := by
  have hparts : (substrings description pattern).encode.asElements =
      .ok [.text Tag.octetString description, .sequence Tag.sequence pattern.encode] :=
    asElements_sequence (by simp) hs
  have hpattern : (Element.sequence Tag.sequence pattern.encode).asElements =
      .ok pattern.encode := by
    exact asElements_sequence pattern.isMultiOctet_encode (length_value_lt_of_mem (by simp) hs)
  simp only [decodeSubstrings, hparts, hpattern, SubstringPattern.foldlM_withPart_encode,
    explain_ok, ok_bind, asText_text]

/-- An assertion that names its own rule is read back where it names the rule or an attribute. -/
theorem decodeExtensible_encode {assertion : ExtensibleMatch}
    (hs : (extensible assertion).encode.value.length < 2 ^ 32) :
    decodeExtensible (extensible assertion).encode =
      explain "invalid extensible match filter" (ofExtensible assertion) := by
  have hparts : (extensible assertion).encode.asElements = .ok assertion.encode :=
    asElements_sequence assertion.isMultiOctet_encode hs
  simp only [decodeExtensible, hparts, ExtensibleMatch.foldlM_withPart_encode, explain_ok, ok_bind]

/-! ## The type of an element decides how it is read -/

section Dispatch

variable {element : Element} (levels : Nat)

/-- Under the type of conjunctions, the parts are read one level further in. -/
theorem decodeNested_of_all (h : element.tag = allTag) :
    decodeNested (levels + 1) element = do
      let parts ← explain "cannot decode the filter set" element.asElements
      return .all (← parts.mapM (decodeNested levels)) := by
  rw [decodeNested, if_pos h]

theorem decodeNested_of_any (h : element.tag = anyTag) :
    decodeNested (levels + 1) element = do
      let parts ← explain "cannot decode the filter set" element.asElements
      return .any (← parts.mapM (decodeNested levels)) := by
  rw [decodeNested, h]
  rfl

theorem decodeNested_of_not (h : element.tag = notTag) :
    decodeNested (levels + 1) element = do
      let inner ← explain "cannot decode the NOT filter component" (Element.decode element.value)
      return .not (← decodeNested levels inner) := by
  rw [decodeNested, h]
  rfl

theorem decodeNested_of_substrings (h : element.tag = substringsTag) :
    decodeNested (levels + 1) element = decodeSubstrings element := by
  rw [decodeNested, h]
  rfl

theorem decodeNested_of_present (h : element.tag = presentTag) :
    decodeNested (levels + 1) element = do
      return .present (← explain "cannot decode the presence filter attribute" element.asText) := by
  rw [decodeNested, h]
  rfl

theorem decodeNested_of_extensible (h : element.tag = extensibleTag) :
    decodeNested (levels + 1) element = decodeExtensible element := by
  rw [decodeNested, h]
  rfl

theorem decodeNested_of_compare {comparison : Comparison} (h : element.tag = comparison.tag) :
    decodeNested (levels + 1) element = do
      let (description, value) ← decodeAssertion element
      return .compare comparison description value := by
  have hcomparison : Comparison.ofTag? comparison.tag = some comparison := by
    cases comparison <;> rfl
  have hother : comparison.tag ≠ allTag ∧ comparison.tag ≠ anyTag ∧ comparison.tag ≠ notTag ∧
      comparison.tag ≠ substringsTag ∧ comparison.tag ≠ presentTag ∧
      comparison.tag ≠ extensibleTag := by
    cases comparison <;> decide
  simp only [decodeNested, h, hother, if_false, hcomparison]

end Dispatch

/-! ## Reading back -/

/-- A pattern makes a filter exactly if it has a part. -/
theorem ofSubstrings_eq_ok_iff {description : String} {pattern : SubstringPattern}
    {filter : Filter} : ofSubstrings description pattern = .ok filter ↔
      filter = substrings description pattern ∧ pattern.isEmpty = false := by
  rw [ofSubstrings]
  cases pattern.isEmpty <;> simp [eq_comm]

/-- An extensible assertion makes a filter exactly if it names a rule or an attribute. -/
theorem ofExtensible_eq_ok_iff {assertion : ExtensibleMatch} {filter : Filter} :
    ofExtensible assertion = .ok filter ↔
      filter = extensible assertion ∧
        (assertion.rule.isSome || assertion.description.isSome) = true := by
  rw [ofExtensible]
  cases assertion.rule <;> cases assertion.description <;> simp [eq_comm]

mutual

/-- What is read from a filter's element is that filter, and it is read where the filter is
complete and not nested too deeply. -/
theorem decodeNested_encode (filter : Filter) (levels : Nat) (g : Filter)
    (hs : filter.encode.value.length < 2 ^ 32) :
    decodeNested levels filter.encode = .ok g ↔
      g = filter ∧ filter.isComplete = true ∧ filter.depth < levels := by
  have htag := filter.tag_encode
  cases levels with
  | zero => simp [decodeNested]
  | succ levels =>
      cases filter with
      | all filters =>
          rw [encode] at hs
          obtain ⟨hparts, hsize⟩ := asElements_encodeAll hs
          rw [decodeNested_of_all levels htag, encode, hparts, explain_ok, ok_bind, isComplete,
            depth, Nat.lt_succ_iff]
          exact bind_pure_eq_ok_iff
            (fun gs => mapM_decodeNested_encodeAll filters levels gs hsize) g
      | any filters =>
          rw [encode] at hs
          obtain ⟨hparts, hsize⟩ := asElements_encodeAll hs
          rw [decodeNested_of_any levels htag, encode, hparts, explain_ok, ok_bind, isComplete,
            depth, Nat.lt_succ_iff]
          exact bind_pure_eq_ok_iff
            (fun gs => mapM_decodeNested_encodeAll filters levels gs hsize) g
      | not filter =>
          have hvalue : (Filter.not filter).encode.value = filter.encode.encode := by rw [encode]
          have hsize : filter.encode.value.length < 2 ^ 32 := by
            have hlen := length_encode filter.encode
            rw [hvalue] at hs
            omega
          have hinner : Element.decode filter.encode.encode = .ok filter.encode :=
            Element.decode_encode filter.isMultiOctet_tag_encode hsize
          rw [decodeNested_of_not levels htag, hvalue, hinner, explain_ok, ok_bind, isComplete,
            depth, Nat.succ_lt_succ_iff]
          exact bind_pure_eq_ok_iff (fun g => decodeNested_encode filter levels g hsize) g
      | compare comparison description value =>
          rw [decodeNested_of_compare levels htag, decodeAssertion_encode hs, ok_bind]
          simp [isComplete, depth, eq_comm]
      | substrings description pattern =>
          rw [decodeNested_of_substrings levels htag, decodeSubstrings_encode hs,
            explain_eq_ok_iff, ofSubstrings_eq_ok_iff]
          simp [isComplete, depth]
      | present description =>
          rw [decodeNested_of_present levels htag, encode, asText_text, explain_ok, ok_bind]
          simp [isComplete, depth, eq_comm]
      | extensible assertion =>
          rw [decodeNested_of_extensible levels htag, decodeExtensible_encode hs,
            explain_eq_ok_iff, ofExtensible_eq_ok_iff]
          simp [isComplete, depth]

/-- What is read from the elements of some filters are these filters. -/
theorem mapM_decodeNested_encodeAll (filters : List Filter) (levels : Nat) (gs : List Filter)
    (hs : ∀ element ∈ encodeAll filters, element.value.length < 2 ^ 32) :
    (encodeAll filters).mapM (decodeNested levels) = .ok gs ↔
      gs = filters ∧ isCompleteAll filters = true ∧ depthAll filters ≤ levels := by
  cases filters with
  | nil => simp [encodeAll, isCompleteAll, depthAll, eq_comm]
  | cons filter filters =>
      have hfilter (g : Filter) := decodeNested_encode filter levels g
        (hs _ (by rw [encodeAll]; exact List.mem_cons_self ..))
      have hfilters (gs : List Filter) := mapM_decodeNested_encodeAll filters levels gs
        fun element h => hs element (by rw [encodeAll]; exact List.mem_cons_of_mem _ h)
      rw [encodeAll, List.mapM_cons]
      simp only [bind_eq_ok_iff, hfilter, hfilters, pure_eq_ok, Except.ok.injEq, isCompleteAll,
        depthAll, Bool.and_eq_true, Nat.max_le, Nat.succ_le_iff]
      constructor
      · rintro ⟨g, ⟨rfl, hc, hd⟩, gs', ⟨rfl, hcs, hds⟩, rfl⟩
        exact ⟨rfl, ⟨hc, hcs⟩, hd, hds⟩
      · rintro ⟨rfl, ⟨hc, hcs⟩, hd, hds⟩
        exact ⟨filter, ⟨rfl, hc, hd⟩, filters, ⟨rfl, hcs, hds⟩, rfl⟩

end

/-- What is read from a filter's element is that filter and no other. -/
theorem eq_of_decode_encode {filter g : Filter} (hs : filter.encode.value.length < 2 ^ 32)
    (h : decode filter.encode = .ok g) : g = filter :=
  ((decodeNested_encode filter (maxDepth + 1) g hs).mp h).1

/-- A filter is read back where each of its assertions names a part and no more connectives than
the reader goes down enclose one. -/
theorem decode_encode_eq_ok_iff {filter : Filter} (hs : filter.encode.value.length < 2 ^ 32) :
    decode filter.encode = .ok filter ↔
      filter.isComplete = true ∧ filter.depth ≤ maxDepth := by
  rw [decode, decodeNested_encode filter (maxDepth + 1) filter hs, Nat.lt_succ_iff]
  exact and_iff_right rfl

end Filter

end DirectoryAccess
