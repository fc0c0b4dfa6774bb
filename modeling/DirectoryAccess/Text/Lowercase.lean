import DirectoryAccess.Text.Cased
import DirectoryAccess.Text.Lowercase.Runs

/-!
# Lower case

The lower-case form of a text, over all characters. Two characters need more than
the table of single letters: a capital I with a dot above becomes a small i and a
combining dot, and a capital sigma takes its final form at the end of a word,
which is where a cased character stands before it and none after it, the
case-ignorable characters between them not counted.
-/

namespace DirectoryAccess

/-- The lower-case form of a character outside any word. -/
def lowerChar (c : Char) : List Char :=
  if c = '\u0130' then ['i', '\u0307']
  else
    match caseRuns.find? (·.holds c.toNat) with
    | some run => [Char.ofNat (run.lower c.toNat)]
    | none => [c]

/-- Whether the first character that is not case-ignorable is a cased one. -/
def meetsCased (text : List Char) : Bool :=
  match text.dropWhile caseIgnorableChars.holds with
  | c :: _ => casedChars.holds c
  | [] => false

/-- A sigma with `before` in front of it, read backwards, and `after` behind it. -/
def lowerSigma (before after : List Char) : Char :=
  if meetsCased before && !meetsCased after then 'ς' else 'σ'

/-- Lower case from some place on: `before` is the text in front of it and `lowered` its
lower-case form, both held backwards. -/
def lowercaseFrom (before lowered : List Char) : List Char → List Char
  | [] => lowered.reverse
  | c :: after =>
    let form := if c = 'Σ' then [lowerSigma before after] else lowerChar c
    lowercaseFrom (c :: before) (form.reverse ++ lowered) after

/-- The lower-case form of a text. -/
def lowercase (text : String) : String :=
  String.ofList (lowercaseFrom [] [] text.toList)

/-- The lower-case form of a text that changes the twenty-six letters of ASCII only. -/
def lowercaseAscii (text : String) : String :=
  text.map Char.toLower

end DirectoryAccess
