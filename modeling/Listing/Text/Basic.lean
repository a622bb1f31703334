/-
Texts and the white space in them.

A text is the list of its characters, so every cut made by the library falls
between two characters.  Offsets in bytes are a measure taken on such a list and
never an index into it.
-/

namespace Listing

/-- A text is its characters in order. -/
abbrev Text := List Char

namespace Text

/-- White space: the characters with the Unicode property `White_Space`.  The
zero-width spaces U+200B and U+FEFF are not among them. -/
def isBlank (c : Char) : Bool :=
  let n := c.toNat
  (0x9 ≤ n && n ≤ 0xD) || n == 0x20 || n == 0x85 || n == 0xA0 || n == 0x1680
    || (0x2000 ≤ n && n ≤ 0x200A) || n == 0x2028 || n == 0x2029 || n == 0x202F
    || n == 0x205F || n == 0x3000

/-- A text with nothing but white space in it. -/
def allBlank (t : Text) : Bool := t.all isBlank

/-- The white space a text starts with. -/
def indent (t : Text) : Text := t.takeWhile isBlank

/-- The text without the white space it starts with. -/
def trimStart (t : Text) : Text := t.dropWhile isBlank

/-- The text without the white space it ends with. -/
def trimEnd (t : Text) : Text := (t.reverse.dropWhile isBlank).reverse

/-- The text without white space at either end. -/
def trim (t : Text) : Text := trimEnd (trimStart t)

theorem indent_append_trimStart (t : Text) : indent t ++ trimStart t = t :=
  List.takeWhile_append_dropWhile

/-- Trimming the end leaves the blank tail it cuts off. -/
theorem trimEnd_append_tail (t : Text) :
    trimEnd t ++ (t.reverse.takeWhile isBlank).reverse = t := by
  rw [trimEnd, ← List.reverse_append, List.takeWhile_append_dropWhile, List.reverse_reverse]

/-- Number of bytes of the UTF-8 form. -/
def byteLength : Text → Nat
  | [] => 0
  | c :: r => c.utf8Size + byteLength r

@[simp] theorem byteLength_nil : byteLength [] = 0 := rfl

@[simp] theorem byteLength_cons (c : Char) (t : Text) :
    byteLength (c :: t) = c.utf8Size + byteLength t := rfl

@[simp] theorem byteLength_append (a b : Text) :
    byteLength (a ++ b) = byteLength a + byteLength b := by
  induction a with
  | nil => exact (Nat.zero_add _).symm
  | cons c r ih => rw [List.cons_append, byteLength_cons, byteLength_cons, ih, Nat.add_assoc]

/-- The text that follows byte offset `offset`.  An offset past the end, or one
inside a character, starts no text. -/
def fromByte? : Text → Nat → Option Text
  | t, 0 => some t
  | [], _ + 1 => none
  | c :: r, n + 1 => if c.utf8Size ≤ n + 1 then fromByte? r (n + 1 - c.utf8Size) else none
termination_by t => t.length

/-- Lines of `t`, where `seen` holds the characters of the current line in
reverse.  A line feed ends a line together with one carriage return before it. -/
def linesAfter (seen : Text) : Text → List Text
  | [] => if seen.isEmpty then [] else [seen.reverse]
  | c :: r =>
    if c = '\n' then
      (match seen with
        | '\r' :: before => before.reverse
        | _ => seen.reverse) :: linesAfter [] r
    else linesAfter (c :: seen) r

/-- The lines of a text.  A final line feed ends the last line and starts no
other, and a carriage return without a line feed stays in its line. -/
def lines (t : Text) : List Text := linesAfter [] t

/-- Words of `t`, where `seen` holds the current word in reverse. -/
def wordsAfter (seen : Text) : Text → List Text
  | [] => if seen.isEmpty then [] else [seen.reverse]
  | c :: r =>
    if isBlank c then
      if seen.isEmpty then wordsAfter [] r else seen.reverse :: wordsAfter [] r
    else wordsAfter (c :: seen) r

/-- The maximal runs without white space. -/
def words (t : Text) : List Text := wordsAfter [] t

/-- The texts put together with `between` in each gap. -/
def join (between : Text) : List Text → Text
  | [] => []
  | [t] => t
  | t :: rest => t ++ between ++ join between rest

/-- Everything before and after the first `c`. -/
def splitAt? (c : Char) : Text → Option (Text × Text)
  | [] => none
  | d :: r =>
    if d = c then some ([], r)
    else match splitAt? c r with
      | some (before, after) => some (d :: before, after)
      | none => none

theorem splitAt?_append {c : Char} {before : Text} (h : c ∉ before) (after : Text) :
    splitAt? c (before ++ c :: after) = some (before, after) := by
  induction before with
  | nil => rw [List.nil_append, splitAt?, if_pos rfl]
  | cons d r ih =>
    have hd : d ≠ c := fun he => h (he ▸ List.mem_cons_self)
    have hr : c ∉ r := fun hmem => h (List.mem_cons_of_mem _ hmem)
    rw [List.cons_append, splitAt?, if_neg hd, ih hr]

theorem append_of_splitAt? {c : Char} {t before after : Text}
    (h : splitAt? c t = some (before, after)) : before ++ c :: after = t := by
  induction t generalizing before with
  | nil => simp [splitAt?] at h
  | cons d r ih =>
    rw [splitAt?] at h
    split at h
    · rename_i hd
      obtain ⟨rfl, rfl⟩ := Prod.mk.inj (Option.some.inj h)
      rw [List.nil_append, hd]
    · split at h
      · rename_i hr
        obtain ⟨rfl, rfl⟩ := Prod.mk.inj (Option.some.inj h)
        rw [List.cons_append, ih hr]
      · simp at h

/-- What follows `head` in a text that starts with it. -/
def after? : Text → Text → Option Text
  | [], t => some t
  | _ :: _, [] => none
  | a :: head, c :: t => if a = c then after? head t else none

/-- A text starts with `head` exactly when it is `head` and something after it. -/
theorem after?_eq_some_iff {head t rest : Text} : after? head t = some rest ↔ head ++ rest = t := by
  induction head generalizing t with
  | nil => exact ⟨fun h => (Option.some.inj h).symm, fun h => congrArg some h.symm⟩
  | cons a head ih =>
    cases t with
    | nil => simp [after?]
    | cons c t =>
      rw [after?, List.cons_append, List.cons_eq_cons]
      split
      · rename_i hac
        exact ih.trans ⟨fun h => ⟨hac, h⟩, fun h => h.2⟩
      · rename_i hac
        exact ⟨fun h => by simp at h, fun h => absurd h.1 hac⟩

theorem after?_eq_none_iff {head t : Text} : after? head t = none ↔ ¬ head <+: t := by
  rw [Option.eq_none_iff_forall_ne_some]
  exact ⟨fun h ⟨rest, hrest⟩ => h rest (after?_eq_some_iff.mpr hrest),
    fun h rest hrest => h ⟨rest, after?_eq_some_iff.mp hrest⟩⟩

/-- What precedes `tail` in a text that ends with it. -/
def before? (tail t : Text) : Option Text :=
  (after? tail.reverse t.reverse).map List.reverse

/-- A text ends with `tail` exactly when it is something and `tail` after it. -/
theorem before?_eq_some_iff {tail t front : Text} :
    before? tail t = some front ↔ front ++ tail = t := by
  rw [before?, Option.map_eq_some_iff]
  constructor
  · intro h
    obtain ⟨rest, hrest, rfl⟩ := h
    rw [← List.reverse_reverse t, ← after?_eq_some_iff.mp hrest, List.reverse_append,
      List.reverse_reverse]
  · intro h
    refine ⟨front.reverse, ?_, List.reverse_reverse front⟩
    rw [after?_eq_some_iff, ← h, List.reverse_append]

theorem before?_eq_none_iff {tail t : Text} : before? tail t = none ↔ ¬ tail <:+ t := by
  rw [before?, Option.map_eq_none_iff, after?_eq_none_iff, List.reverse_prefix]

/-- Decimal digits of a number. -/
def ofNat (n : Nat) : Text := Nat.toDigits 10 n

/-- The word for a truth value. -/
def ofBool (b : Bool) : Text := if b then "true".toList else "false".toList

/-- The value of a run of decimal digits; other characters do not count. -/
def digitValue (t : Text) : Nat := t.foldl (fun n c => 10 * n + (c.toNat - '0'.toNat)) 0

/-- Reads digits with at most one plus sign before them, up to `limit`. -/
def natural? (limit : Nat) (t : Text) : Option Nat :=
  let digits := match t with
    | '+' :: r => r
    | _ => t
  if digits.isEmpty || !digits.all Char.isDigit then none
  else if digitValue digits ≤ limit then some (digitValue digits) else none

/-- The greatest number of 64 bits. -/
def maxWord : Nat := 0xFFFFFFFFFFFFFFFF

end Text
end Listing
