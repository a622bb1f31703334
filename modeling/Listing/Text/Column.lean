/-
Columns: how wide a text shows, and tab stops.

`width` is additive over concatenation, which is what lets a wrapper measure a
line piece by piece.
-/
import Listing.Text.Basic
import Listing.Text.WidthTable

namespace Listing
namespace Text

/-- Columns one character takes.  A control character takes one. -/
def charWidth (c : Char) : Nat :=
  let n := c.toNat
  if n < 0x300 then if n = 0xAD then 0 else 1
  else if zeroWidth.has c then 0
  else if doubleWidth.has c then 2
  else if n = 0x17D8 then 3
  else 1

/-- No character takes more than three columns. -/
theorem charWidth_le (c : Char) : charWidth c ≤ 3 := by
  simp only [charWidth]
  repeat' split
  all_goals omega

/-- Columns a text takes. -/
def width : Text → Nat
  | [] => 0
  | c :: r => charWidth c + width r

@[simp] theorem width_nil : width [] = 0 := rfl

@[simp] theorem width_cons (c : Char) (t : Text) : width (c :: t) = charWidth c + width t := rfl

@[simp] theorem width_append (a b : Text) : width (a ++ b) = width a + width b := by
  induction a with
  | nil => exact (Nat.zero_add _).symm
  | cons c r ih => rw [List.cons_append, width_cons, width_cons, ih, Nat.add_assoc]

/-- The text takes at most `room` columns. -/
def fits (room : Nat) : Text → Bool
  | [] => true
  | c :: r => charWidth c ≤ room && fits (room - charWidth c) r

@[simp] theorem fits_iff (room : Nat) (t : Text) : fits room t = true ↔ width t ≤ room := by
  induction t generalizing room with
  | nil => simp [fits]
  | cons c r ih =>
    rw [fits, Bool.and_eq_true, decide_eq_true_iff, ih, width_cons]
    omega

/-- Expands the tabs of a text that starts at column `column`. -/
def expandFrom (tab column : Nat) : Text → Text
  | [] => []
  | c :: r =>
    if c = '\t' then
      let pad := tab - column % tab
      List.replicate pad ' ' ++ expandFrom tab (column + pad) r
    else c :: expandFrom tab (column + charWidth c) r

/-- Replaces each tab by spaces up to the next multiple of `tab` columns.  Tab
stops are at least one column apart. -/
def expandTabs (tab : Nat) (t : Text) : Text := expandFrom (max tab 1) 0 t

end Text
end Listing
