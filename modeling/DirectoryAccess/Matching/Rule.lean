import DirectoryAccess.Filter.Basic
import DirectoryAccess.Matching.Spaces
import DirectoryAccess.Text.Quoted
import DirectoryAccess.Text.Utf8

/-!
# Matching rules

A matching rule is a normal form for values and one for parts of values. Equality,
order and substring matching follow from these two alone: values are equal if
their normal forms are, they compare as their normal forms do octet by octet, and
a pattern matches if its parts can be found in the normal form of the value, each
one at the leftmost place behind the one before it.
-/

namespace DirectoryAccess.Matching

/-- What a rule is asked for under one of its names. -/
inductive RuleKind
  | equality
  | ordering
  | substring
  deriving DecidableEq, Repr

/-- A name and an object identifier of a rule. -/
structure RuleId where
  /-- What the rule is asked for under them. -/
  kind : RuleKind
  /-- The name. -/
  name : String
  /-- The object identifier. -/
  oid : String
  deriving DecidableEq, Repr

/-- A matching rule. -/
structure Rule where
  /-- The names of the rule, that for equality first. -/
  ids : List RuleId
  /-- The normal form of a value. -/
  normalize : Octets → Except Failure Octets
  /-- The normal form of a part of a value. -/
  normalizePart : Place → Octets → Except Failure Octets

/-- The first octets that differ decide, as numbers; where none do, the shorter string comes
first. -/
def compareOctets (a b : Octets) : Ordering :=
  ((List.zipWith compare a b).find? (· != .eq)).getD (compare a.length b.length)

/-- What follows the leftmost occurrence of a fragment. -/
def afterFirst? (fragment : Octets) : Octets → Option Octets
  | [] => if fragment.isEmpty then some [] else none
  | b :: rest =>
    if fragment.isPrefixOf (b :: rest) then some ((b :: rest).drop fragment.length)
    else afterFirst? fragment rest

/-- A normal form as it is shown, with what is no text replaced. -/
def describeNormalized (octets : Octets) : String :=
  s!"NormalizedValue({quoted (Utf8.decodeLossy octets)})"

namespace Rule

/-- Whether two values are equal under the rule. -/
def valuesMatch (rule : Rule) (a b : Octets) : Except Failure Bool := do
  let a ← rule.normalize a
  let b ← rule.normalize b
  return a == b

/-- How two values compare under the rule. -/
def compareValues (rule : Rule) (a b : Octets) : Except Failure Ordering := do
  let a ← rule.normalize a
  let b ← rule.normalize b
  return compareOctets a b

/-- What follows the part that a normal form has to begin with, if it does. -/
def afterInitial (rule : Rule) (value : Octets) : Option Octets → Except Failure (Option Octets)
  | none => return some value
  | some part => do
    let part ← rule.normalizePart .initial part
    return if part.isPrefixOf value then some (value.drop part.length) else none

/-- What follows the parts that have to come in a normal form, if they do. -/
def afterAny (rule : Rule) (value : Octets) : List Octets → Except Failure (Option Octets)
  | [] => return some value
  | part :: parts => do
    let part ← rule.normalizePart .any part
    if part.isEmpty then rule.afterAny value parts
    else
      match afterFirst? part value with
      | some rest => rule.afterAny rest parts
      | none => return none

/-- Whether what is left of a normal form ends as it has to. -/
def endsWith (rule : Rule) (value : Octets) : Option Octets → Except Failure Bool
  | none => return true
  | some part => do
    let part ← rule.normalizePart .final part
    return part.isSuffixOf value

/-- Whether a value matches a pattern under the rule. A part is normalized only once all parts
in front of it have been found. -/
def matchesPattern (rule : Rule) (value : Octets) (pattern : SubstringPattern) :
    Except Failure Bool := do
  let value ← rule.normalize value
  match ← rule.afterInitial value pattern.initial with
  | none => return false
  | some rest =>
    match ← rule.afterAny rest pattern.any with
    | none => return false
    | some rest => rule.endsWith rest pattern.final

end Rule

end DirectoryAccess.Matching
