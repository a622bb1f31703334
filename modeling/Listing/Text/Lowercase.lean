/-
Lower case of texts.

One capital has a lower case of two characters, and a capital sigma is written
`ς` at the end of a word, so lower case is a function of a character and of what
stands around it.
-/
import Listing.Text.Basic
import Listing.Text.CaseTable

namespace Listing
namespace Text

def CaseRun.has (run : CaseRun) (c : Char) : Bool :=
  run.first ≤ c.toNat && c.toNat ≤ run.last && (c.toNat - run.first) % run.step == 0

/-- The small letter of a capital that has one of its own. -/
def smallLetter (c : Char) : Char :=
  match caseRuns.find? (·.has c) with
  | some run => Char.ofNat (c.toNat + run.offset).toNat
  | none => c

/-- The next character that counts for the case of a word is a cased one. -/
def meetsCased (t : Text) : Bool :=
  match t.dropWhile caseIgnorable.has with
  | c :: _ => cased.has c
  | [] => false

/-- Lower case of `c` between the texts `before`, nearest character first, and
`after`. -/
def lowercaseAt (before : Text) (c : Char) (after : Text) : Text :=
  if c = 'Σ' then [if meetsCased before && !meetsCased after then 'ς' else 'σ']
  else if c = 'İ' then ['i', '\u0307']
  else [smallLetter c]

/-- Lower case of a text that follows `before`, given nearest character first. -/
def lowercaseAfter (before : Text) : Text → Text
  | [] => []
  | c :: r => lowercaseAt before c r ++ lowercaseAfter (c :: before) r

/-- Lower case of a text. -/
def lowercase (t : Text) : Text := lowercaseAfter [] t

/-- Lower case of the letters A to Z; every other character stays. -/
def asciiLowercase (t : Text) : Text := t.map Char.toLower

/-- The form under which a name is looked up: trimmed and in lower case. -/
def canonical (t : Text) : Text := lowercase (trim t)

/-- Reads a word for yes or no, whatever its case. -/
def boolean? (t : Text) : Option Bool :=
  let word := canonical t
  if ["true".toList, "yes".toList, "on".toList, "1".toList].contains word then some true
  else if ["false".toList, "no".toList, "off".toList, "0".toList].contains word then some false
  else none

end Text
end Listing
