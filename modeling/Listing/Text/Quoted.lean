/-
Quoted texts for messages, with every character that does not show spelled out.
-/
import Listing.Text.Basic
import Listing.Text.HiddenTable

namespace Listing
namespace Text

/-- Hexadecimal digits of a number, in lower case. -/
def hex (n : Nat) : Text := Nat.toDigits 16 n

/-- One character as it stands between double quotes. -/
def quoteChar (c : Char) : Text :=
  if c = '\x00' then "\\0".toList
  else if c = '\t' then "\\t".toList
  else if c = '\n' then "\\n".toList
  else if c = '\r' then "\\r".toList
  else if c = '"' then "\\\"".toList
  else if c = '\\' then "\\\\".toList
  else if hidden.has c then "\\u\x7b".toList ++ hex c.toNat ++ "\x7d".toList
  else [c]

def quote (t : Text) : Text := '"' :: t.flatMap quoteChar ++ ['"']

end Text
end Listing
