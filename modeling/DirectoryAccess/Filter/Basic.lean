import DirectoryAccess.Failure
import DirectoryAccess.Octets

/-!
# Search filters

A filter says which entries a search is to find: assertions about attributes,
combined by conjunction, disjunction and negation. A substring assertion names parts
of a value: how it begins, what comes in it in order, and how it ends. Two kinds of
assertion have parts that may all be missing, which is allowed in a filter as such
but not where one is built (`ofSubstrings`, `ofExtensible`). Whether two filters are
equal is decided by `same`.
-/

namespace DirectoryAccess

/-- How a value is compared with the values of an attribute. -/
inductive Comparison
  | equal
  | atLeast
  | atMost
  | approximate
  deriving DecidableEq, Repr

/-- Parts of a value, in the order in which they have to come. -/
structure SubstringPattern where
  /-- What the value begins with. -/
  initial : Option Octets
  /-- What comes in between, in order and without overlap. -/
  any : List Octets
  /-- What the value ends with. -/
  final : Option Octets
  deriving DecidableEq, Repr

/-- Whether the pattern names no part at all. -/
def SubstringPattern.isEmpty (pattern : SubstringPattern) : Bool :=
  pattern.initial.isNone && pattern.any.isEmpty && pattern.final.isNone

/-- An assertion that names its own matching rule. -/
structure ExtensibleMatch where
  /-- The matching rule, or that of the attribute. -/
  rule : Option String
  /-- The attribute, or all that the rule is for. -/
  description : Option String
  /-- The asserted value. -/
  value : Octets
  /-- Whether the attributes in an entry's name count as well. -/
  dnAttributes : Bool
  deriving DecidableEq, Repr

/-- Which entries a search is to find. -/
inductive Filter
  /-- Entries that all filters find. -/
  | all (filters : List Filter)
  /-- Entries that some filter finds. -/
  | any (filters : List Filter)
  /-- Entries that the filter does not find. -/
  | not (filter : Filter)
  /-- Entries with a value of the attribute that compares so. -/
  | compare (comparison : Comparison) (description : String) (value : Octets)
  /-- Entries with a value of the attribute that has these parts. -/
  | substrings (description : String) (pattern : SubstringPattern)
  /-- Entries that have the attribute. -/
  | present (description : String)
  /-- Entries with a value that a matching rule finds. -/
  | extensible (assertion : ExtensibleMatch)
  deriving Repr, Inhabited

namespace Filter

/-- The filter for values with the given parts, of which there must be one. -/
def ofSubstrings (description : String) (pattern : SubstringPattern) : Except Failure Filter :=
  if pattern.isEmpty then .error (.invalidData "substring filter needs at least one component")
  else .ok (.substrings description pattern)

/-- The filter for values that a matching rule finds; a rule or an attribute must be named. -/
def ofExtensible (assertion : ExtensibleMatch) : Except Failure Filter :=
  if assertion.rule.isNone && assertion.description.isNone then
    .error (.invalidData "extensible match filter needs a matching rule or an attribute")
  else .ok (.extensible assertion)

/-! ## Equality -/

mutual

/-- Whether two filters are equal. -/
def same : Filter → Filter → Bool
  | all xs, all ys => sameAll xs ys
  | any xs, any ys => sameAll xs ys
  | not x, not y => same x y
  | compare c d v, compare c' d' v' => c = c' && d = d' && v = v'
  | substrings d p, substrings d' p' => d = d' && p = p'
  | present d, present d' => d = d'
  | extensible a, extensible a' => a = a'
  | _, _ => false

/-- Whether two lists of filters are equal. -/
def sameAll : List Filter → List Filter → Bool
  | [], [] => true
  | x :: xs, y :: ys => same x y && sameAll xs ys
  | _, _ => false

end

mutual

/-- Two filters are the same exactly if they are equal. -/
theorem same_iff : ∀ x y : Filter, same x y = true ↔ x = y
  | all xs, y => by cases y <;> simp [same, sameAll_iff xs]
  | any xs, y => by cases y <;> simp [same, sameAll_iff xs]
  | not x, y => by cases y <;> simp [same, same_iff x]
  | compare c d v, y => by cases y <;> simp [same, and_assoc]
  | substrings d p, y => by cases y <;> simp [same]
  | present d, y => by cases y <;> simp [same]
  | extensible a, y => by cases y <;> simp [same]

/-- Two lists of filters are the same exactly if they are equal. -/
theorem sameAll_iff : ∀ xs ys : List Filter, sameAll xs ys = true ↔ xs = ys
  | [], ys => by cases ys <;> simp [sameAll]
  | x :: xs, ys => by cases ys <;> simp [sameAll, same_iff x, sameAll_iff xs]

end

instance : DecidableEq Filter := fun x y => decidable_of_iff _ (same_iff x y)

end Filter

end DirectoryAccess
