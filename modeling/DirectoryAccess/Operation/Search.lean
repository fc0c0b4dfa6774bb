import DirectoryAccess.Attribute
import DirectoryAccess.Filter.Codec
import DirectoryAccess.Operation.Kind

/-!
# Searching

A search names the part of the tree that it looks at, how it treats aliases, its
limits, the filter and the attributes that it wants. A negative limit is the same
as none, so a limit that is kept is never negative.
-/

namespace DirectoryAccess

open Ber (Element Tag)

/-- The part of the tree that a search looks at. -/
inductive SearchScope
  | baseObject
  | singleLevel
  | subtree
  | subordinates
  deriving DecidableEq, Repr

namespace SearchScope

/-- The number of a scope. -/
def code : SearchScope → Int32
  | baseObject => 0
  | singleLevel => 1
  | subtree => 2
  | subordinates => 3

/-- The scope with the given number. -/
def ofCode : Int32 → Except Failure SearchScope :=
  chooseByCode "search scope" [baseObject, singleLevel, subtree, subordinates] code

end SearchScope

/-- When a search follows aliases. -/
inductive Dereferencing
  | never
  | inSearching
  | findingBaseObject
  | always
  deriving DecidableEq, Repr

namespace Dereferencing

/-- The number of a policy. -/
def code : Dereferencing → Int32
  | never => 0
  | inSearching => 1
  | findingBaseObject => 2
  | always => 3

/-- The policy with the given number. -/
def ofCode : Int32 → Except Failure Dereferencing :=
  chooseByCode "dereference policy" [never, inSearching, findingBaseObject, always] code

end Dereferencing

/-- A limit that a search sets; zero is none. -/
structure SearchLimit where
  /-- The number of entries or seconds. -/
  value : Int32
  /-- The number is not negative. -/
  zero_le_value : 0 ≤ value
  deriving DecidableEq, Repr

/-- The limit of a number, which is none where the number is negative. -/
def SearchLimit.ofInt32 (v : Int32) : SearchLimit :=
  if h : 0 ≤ v then ⟨v, h⟩ else ⟨0, by decide⟩

/-- A request to find entries. -/
structure SearchRequest where
  /-- The entry where the search starts. -/
  base : String
  /-- The part of the tree below it. -/
  scope : SearchScope
  /-- The treatment of aliases. -/
  dereferencing : Dereferencing
  /-- The most entries to be found. -/
  sizeLimit : SearchLimit
  /-- The most seconds to be spent. -/
  timeLimit : SearchLimit
  /-- Whether only the names of attributes are wanted. -/
  typesOnly : Bool
  /-- Which entries are to be found. -/
  filter : Filter
  /-- The attributes that are wanted. -/
  attributes : List String
  deriving DecidableEq, Repr

namespace SearchRequest

/-- The element of a request. -/
def encode (request : SearchRequest) : Element :=
  .sequence Kind.searchRequest.tag
    [.text Tag.octetString request.base,
      .integer Tag.enumerated request.scope.code.toInt,
      .integer Tag.enumerated request.dereferencing.code.toInt,
      .integer Tag.integer request.sizeLimit.value.toInt,
      .integer Tag.integer request.timeLimit.value.toInt,
      .boolean Tag.boolean request.typesOnly,
      request.filter.encode,
      .texts Tag.sequence request.attributes]

/-- The request that an element is. -/
def decode (element : Element) : Except Failure SearchRequest := do
  match ← element.asElements with
  | [base, scope, dereferencing, sizeLimit, timeLimit, typesOnly, filter, attributes] =>
    let base ← explain "cannot decode the base DN" base.asText
    let scope ← explain "cannot decode the search scope" (scope.asInt32 >>= SearchScope.ofCode)
    let dereferencing ← explain "cannot decode the dereference policy"
      (dereferencing.asInt32 >>= Dereferencing.ofCode)
    let sizeLimit ← explain "cannot decode the size limit" sizeLimit.asInt32
    let timeLimit ← explain "cannot decode the time limit" timeLimit.asInt32
    let typesOnly ← explain "cannot decode the typesOnly flag" typesOnly.asBool
    let filter ← explain "cannot decode the search filter" (Filter.decode filter)
    let attributes ← explain "cannot decode the requested attributes" attributes.asTexts
    return ⟨base, scope, dereferencing, .ofInt32 sizeLimit, .ofInt32 timeLimit, typesOnly, filter,
      attributes⟩
  | parts => throw (.elementCount "search request" "8" parts.length)

end SearchRequest

end DirectoryAccess
