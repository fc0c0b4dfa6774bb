import DirectoryAccess.Filter.Basic
import DirectoryAccess.Octets

/-!
# Filters as text

A filter is written between parentheses, its connective in front of the filters
that it joins. An octet of a value that could be mistaken for a part of the
notation, and every octet outside ASCII, is a backslash and two hexadecimal
digits.
-/

namespace DirectoryAccess

/-- An octet of a value in the text of a filter. -/
def escapeOctet (b : UInt8) : List Char :=
  if b = 0x2A || b = 0x28 || b = 0x29 || b = 0x5C || b = 0x00 || 0x80 ≤ b then
    ['\\', hexDigit (b.toNat / 16), hexDigit (b.toNat % 16)]
  else [Char.ofNat b.toNat]

/-- A value in the text of a filter. -/
def escapeOctets (value : Octets) : List Char := value.flatMap escapeOctet

/-- The sign between an attribute and a value. -/
def Comparison.sign : Comparison → List Char
  | equal => ['=']
  | atLeast => ['>', '=']
  | atMost => ['<', '=']
  | approximate => ['~', '=']

namespace Filter

mutual

/-- The characters of a filter's text. -/
def chars : Filter → List Char
  | all filters => '(' :: '&' :: (charsAll filters ++ [')'])
  | any filters => '(' :: '|' :: (charsAll filters ++ [')'])
  | not filter => '(' :: '!' :: (chars filter ++ [')'])
  | compare comparison description value =>
    '(' :: (description.toList ++ comparison.sign ++ escapeOctets value ++ [')'])
  | substrings description pattern =>
    '(' :: (description.toList ++ ['='] ++ escapeOctets (pattern.initial.getD []) ++ ['*'] ++
      pattern.any.flatMap (fun part => escapeOctets part ++ ['*']) ++
      escapeOctets (pattern.final.getD []) ++ [')'])
  | present description => '(' :: (description.toList ++ ['=', '*', ')'])
  | extensible assertion =>
    '(' :: ((assertion.description.getD "").toList ++
      (if assertion.dnAttributes then [':', 'd', 'n'] else []) ++
      (match assertion.rule with
        | some rule => ':' :: rule.toList
        | none => []) ++
      [':', '='] ++ escapeOctets assertion.value ++ [')'])

/-- The characters of the texts of some filters. -/
def charsAll : List Filter → List Char
  | [] => []
  | filter :: filters => chars filter ++ charsAll filters

end

/-- The text of a filter. -/
def text (filter : Filter) : String := String.ofList filter.chars

end Filter

end DirectoryAccess
