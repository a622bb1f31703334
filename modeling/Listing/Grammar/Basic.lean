/-
Grammars: what the lexer knows about a language.

A grammar is made from a definition.  Its comment delimiters are markers, texts
of at least one character, so every rule that meets one moves forward.
-/
import Listing.Dict
import Listing.Text.Lowercase

namespace Listing

/-- A delimiter, which has at least one character. -/
structure Marker where
  first : Char
  rest : Text
deriving DecidableEq

namespace Marker

def text (m : Marker) : Text := m.first :: m.rest

/-- Only a text with a character in it is a marker. -/
def ofText? : Text → Option Marker
  | [] => none
  | c :: r => some ⟨c, r⟩

/-- What follows the marker in a text that starts with it. -/
def after? (m : Marker) (t : Text) : Option Text := Text.after? m.text t

/-- Cuts a text right after the first place where the marker stands. -/
def cutAfter? (m : Marker) : Text → Option (Text × Text)
  | [] => none
  | c :: r =>
    match m.after? (c :: r) with
    | some rest => some (m.text, rest)
    | none =>
      match m.cutAfter? r with
      | some (head, rest) => some (c :: head, rest)
      | none => none

theorem text_append_of_after? {m : Marker} {t rest : Text} (h : m.after? t = some rest) :
    m.text ++ rest = t :=
  Text.after?_eq_some_iff.mp h

/-- The cut loses nothing. -/
theorem append_of_cutAfter? {m : Marker} {t head rest : Text}
    (h : m.cutAfter? t = some (head, rest)) : head ++ rest = t := by
  induction t generalizing head rest with
  | nil => simp [cutAfter?] at h
  | cons c r ih =>
    rw [cutAfter?] at h
    split at h
    · rename_i hafter
      obtain ⟨rfl, rfl⟩ := Prod.mk.inj (Option.some.inj h)
      exact text_append_of_after? hafter
    · split at h
      · rename_i hcut
        obtain ⟨rfl, rfl⟩ := Prod.mk.inj (Option.some.inj h)
        rw [List.cons_append, ih hcut]
      · simp at h

/-- The part before the cut holds at least the marker. -/
theorem ne_nil_of_cutAfter? {m : Marker} {t head rest : Text}
    (h : m.cutAfter? t = some (head, rest)) : head ≠ [] := by
  cases t with
  | nil => simp [cutAfter?] at h
  | cons c r =>
    rw [cutAfter?] at h
    split at h
    · obtain ⟨rfl, -⟩ := Prod.mk.inj (Option.some.inj h)
      simp [text]
    · split at h
      · obtain ⟨rfl, -⟩ := Prod.mk.inj (Option.some.inj h)
        simp
      · simp at h

end Marker

/-- The opener and the closer of block comments. -/
structure BlockComment where
  opener : Marker
  closer : Marker
deriving DecidableEq

/-- A language as its author describes it. -/
structure Definition where
  id : Text
  extensions : List Text := []
  aliases : List Text := []
  keywords : List Text := []
  /-- Texts that start a comment up to the end of the line. -/
  lineComments : List Text := []
  /-- Opener and closer of block comments. -/
  blockComment : Option (Text × Text) := none
  /-- Characters that open and close strings. -/
  quotes : List Char := []

/-- A language as the lexer reads it. -/
structure Grammar where
  id : Text
  extensions : List Text
  aliases : List Text
  /-- Reserved words in increasing order; their case counts. -/
  keywords : List Text
  lineComments : List Marker
  blockComment : Option BlockComment
  quotes : List Char
deriving DecidableEq

namespace Grammar

/-- The grammar of a definition.  Names of languages and extensions are kept in
lower case, and empty comment delimiters are left out. -/
def ofDefinition (d : Definition) : Grammar where
  id := Text.lowercase d.id
  extensions := d.extensions.map Text.lowercase
  aliases := d.aliases.map Text.lowercase
  keywords := Dict.sortUnique d.keywords
  lineComments := d.lineComments.filterMap Marker.ofText?
  blockComment := do
    let (opener, closer) ← d.blockComment
    return ⟨← Marker.ofText? opener, ← Marker.ofText? closer⟩
  quotes := d.quotes

def isKeyword (g : Grammar) (word : Text) : Bool := g.keywords.contains word

def isQuote (g : Grammar) (c : Char) : Bool := g.quotes.contains c

/-- The first line comment marker that a text starts with. -/
def lineComment? (g : Grammar) (t : Text) : Option Marker :=
  g.lineComments.find? fun m => (m.after? t).isSome

/-- The opener of a block comment that a text starts with, and what follows it. -/
def blockComment? (g : Grammar) (t : Text) : Option (BlockComment × Text) :=
  match g.blockComment with
  | none => none
  | some block =>
    match block.opener.after? t with
    | some rest => some (block, rest)
    | none => none

end Grammar
end Listing
