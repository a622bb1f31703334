/-
The table of languages after any additions.

Nothing is taken out of the table when a language is added: another one may take over its
id, an alias or an extension, and the entries that it does not take over stay.  So what
the table answers depends on all that was added.  `Records` says how, one addition keeps
it (`records_add`), and `answers_additions` draws from it what the look-ups find.
-/
import Listing.Grammar.Table
import Listing.Proofs.Dict
import Listing.Proofs.Text.Lowercase

namespace Listing
namespace LanguageTable

/-! ## What was added last -/

/-- The last of the grammars with a property. -/
def last? (p : Grammar → Bool) (added : List Grammar) : Option Grammar :=
  (added.filter p).getLast?

/-- The last grammar added with an id. -/
def withId? (id : Text) (added : List Grammar) : Option Grammar :=
  last? (fun g => g.id == id) added

/-- The id of the last grammar added that has a name among its `names`. -/
def claimant? (names : Grammar → List Text) (name : Text) (added : List Grammar) : Option Text :=
  (last? (fun g => (names g).contains name) added).map Grammar.id

theorem last?_concat (p : Grammar → Bool) (added : List Grammar) (g : Grammar) :
    last? p (added ++ [g]) = if p g = true then some g else last? p added := by
  unfold last?
  rw [List.filter_append]
  by_cases hg : p g = true
  · rw [List.filter_cons_of_pos hg, List.filter_nil, List.getLast?_concat, if_pos hg]
  · rw [List.filter_cons_of_neg hg, List.filter_nil, List.append_nil, if_neg hg]

theorem withId?_concat (id : Text) (added : List Grammar) (g : Grammar) :
    withId? id (added ++ [g]) = if g.id = id then some g else withId? id added := by
  unfold withId?
  rw [last?_concat]
  by_cases hid : g.id = id
  · rw [if_pos (beq_iff_eq.mpr hid), if_pos hid]
  · rw [if_neg (fun h => hid (beq_iff_eq.mp h)), if_neg hid]

theorem claimant?_concat (names : Grammar → List Text) (name : Text) (added : List Grammar)
    (g : Grammar) :
    claimant? names name (added ++ [g]) =
      if name ∈ names g then some g.id else claimant? names name added := by
  unfold claimant?
  rw [last?_concat]
  by_cases hname : name ∈ names g
  · rw [if_pos (List.contains_iff_mem.mpr hname), if_pos hname, Option.map_some]
  · rw [if_neg (fun h => hname (List.contains_iff_mem.mp h)), if_neg hname]

theorem id_of_withId? {id : Text} {added : List Grammar} {g : Grammar}
    (h : withId? id added = some g) : g.id = id := by
  have hmem : g ∈ added.filter fun g => g.id == id := List.mem_of_getLast? h
  exact beq_iff_eq.mp (List.mem_filter.mp hmem).2

theorem withId?_isSome_iff {id : Text} {added : List Grammar} :
    (withId? id added).isSome = true ↔ ∃ g ∈ added, g.id = id := by
  unfold withId? last?
  rw [List.getLast?_isSome, ne_eq, List.filter_eq_nil_iff]
  simp only [beq_iff_eq, not_forall, not_not, exists_prop]

/-- Whoever claims a name was added. -/
theorem withId?_isSome_of_claimant? {names : Grammar → List Text} {name id : Text}
    {added : List Grammar} (h : claimant? names name added = some id) :
    (withId? id added).isSome = true := by
  obtain ⟨g, hlast, hid⟩ := Option.map_eq_some_iff.mp h
  have hmem : g ∈ added.filter fun g => (names g).contains name := List.mem_of_getLast? hlast
  exact withId?_isSome_iff.mpr ⟨g, (List.mem_filter.mp hmem).1, hid⟩

/-! ## One addition -/

/-- The table holds what was added last, and nothing else. -/
structure Records (table : LanguageTable) (added : List Grammar) : Prop where
  grammars : ∀ id, table.grammars.get? id = withId? id added
  aliases : ∀ name, table.aliases.get? name = claimant? Grammar.aliases name added
  extensions : ∀ name, table.extensions.get? name = claimant? Grammar.extensions name added

/-- All keys of an index are given to one language. -/
theorem get?_foldl_insert_id (keys : List Text) (id : Text) (index : Dict Text) (key : Text) :
    (keys.foldl (fun d k => d.insert k id) index).get? key =
      if key ∈ keys then some id else index.get? key := by
  induction keys generalizing index with
  | nil => rw [List.foldl_nil, if_neg List.not_mem_nil]
  | cons k rest ih =>
    rw [List.foldl_cons, ih]
    by_cases hrest : key ∈ rest
    · rw [if_pos hrest, if_pos (List.mem_cons_of_mem k hrest)]
    · rw [if_neg hrest]
      by_cases hk : key = k
      · rw [hk, Dict.get?_insert_self, if_pos List.mem_cons_self]
      · rw [Dict.get?_insert_ne index hk, if_neg (by simp [hk, hrest])]

theorem records_none (fallback : Grammar) :
    Records ⟨Dict.empty, Dict.empty, Dict.empty, fallback⟩ [] where
  grammars _ := rfl
  aliases _ := rfl
  extensions _ := rfl

theorem records_add {table : LanguageTable} {added : List Grammar} (h : table.Records added)
    (g : Grammar) : (table.add g).Records (added ++ [g]) where
  grammars id := by
    rw [withId?_concat, add, ← h.grammars id]
    by_cases hid : g.id = id
    · rw [if_pos hid, ← hid, Dict.get?_insert_self]
    · rw [if_neg hid, Dict.get?_insert_ne table.grammars (Ne.symm hid)]
  aliases name := by
    rw [claimant?_concat, ← h.aliases name]
    exact get?_foldl_insert_id g.aliases g.id table.aliases name
  extensions name := by
    rw [claimant?_concat, ← h.extensions name]
    exact get?_foldl_insert_id g.extensions g.id table.extensions name

/-! ## Any additions -/

/-- The table of a fallback and of the languages added to it in turn. -/
def ofDefinitions (fallback : Definition) (others : List Definition) : LanguageTable :=
  others.foldl (fun table d => table.add (Grammar.ofDefinition d))
    (ofFallback (Grammar.ofDefinition fallback))

theorem records_foldl {table : LanguageTable} {added : List Grammar} (h : table.Records added)
    (others : List Definition) :
    (others.foldl (fun table d => table.add (Grammar.ofDefinition d)) table).Records
      (added ++ others.map Grammar.ofDefinition) := by
  induction others generalizing table added with
  | nil =>
    rw [List.map_nil, List.append_nil]
    exact h
  | cons d rest ih =>
    have hrest := ih (records_add h (Grammar.ofDefinition d))
    rw [List.append_assoc] at hrest
    exact hrest

theorem records_ofDefinitions (fallback : Definition) (others : List Definition) :
    (ofDefinitions fallback others).Records
      ((fallback :: others).map Grammar.ofDefinition) :=
  records_foldl (records_add (records_none _) (Grammar.ofDefinition fallback)) others

/-- An id that was given without white space around it is its own canonical form. -/
theorem canonical_id {d : Definition} (h : Text.trim d.id = d.id) :
    Text.canonical (Grammar.ofDefinition d).id = (Grammar.ofDefinition d).id := by
  show Text.canonical (Text.lowercase d.id) = Text.lowercase d.id
  rw [Text.canonical_lowercase, Text.canonical, h]

theorem get?_of_records {table : LanguageTable} {added : List Grammar} (h : table.Records added)
    (id : Text) :
    table.get? id = (withId? (Text.canonical id) added).or
      ((claimant? Grammar.aliases (Text.canonical id) added).bind fun owner =>
        withId? owner added) := by
  have hgrammars : table.grammars.get? = fun owner => withId? owner added := funext h.grammars
  unfold get?
  simp only [hgrammars, h.aliases]
  cases withId? (Text.canonical id) added with
  | none => rfl
  | some g => rfl

theorem detect?_of_records {table : LanguageTable} {added : List Grammar}
    (h : table.Records added) (path : Path) :
    table.detect? path = path.extension?.bind fun ext =>
      claimant? Grammar.extensions (Text.lowercase ext) added := by
  unfold detect?
  simp only [h.extensions]

/-- Whatever languages were added, in any order and over each other: aliases and extensions
stand for languages that are there, an id finds the last language added with it and
otherwise the language that claimed it last as an alias, an extension finds the language
that claimed it last, and the ids are those that were added. -/
theorem answers_additions (fallback : Definition) (others : List Definition)
    (htrim : ∀ d ∈ fallback :: others, Text.trim d.id = d.id) :
    let table := ofDefinitions fallback others
    let added := (fallback :: others).map Grammar.ofDefinition
    (∀ name id, table.aliases.get? name = some id ∨ table.extensions.get? name = some id →
      (table.grammars.get? id).isSome = true) ∧
    (∀ id g, table.grammars.get? id = some g → g.id = id) ∧
    (∀ id, table.get? id = (withId? (Text.canonical id) added).or
      ((claimant? Grammar.aliases (Text.canonical id) added).bind fun owner =>
        withId? owner added)) ∧
    (∀ path, table.detect? path = path.extension?.bind fun ext =>
      claimant? Grammar.extensions (Text.lowercase ext) added) ∧
    (∀ path id, table.detect? path = some id → ∃ g, table.get? id = some g ∧ g.id = id) ∧
    table.ids.Pairwise (fun a b => a < b) ∧
    ∀ id, id ∈ table.ids ↔ ∃ g ∈ added, g.id = id := by
  intro table added
  have h : table.Records added := records_ofDefinitions fallback others
  refine ⟨?_, ?_, get?_of_records h, detect?_of_records h, ?_, ?_, ?_⟩
  · intro name id hclaim
    rw [h.aliases, h.extensions] at hclaim
    rw [h.grammars]
    exact hclaim.elim withId?_isSome_of_claimant? withId?_isSome_of_claimant?
  · intro id g hg
    rw [h.grammars] at hg
    exact id_of_withId? hg
  · intro path id hdetect
    rw [detect?_of_records h] at hdetect
    obtain ⟨ext, -, hclaim⟩ := Option.bind_eq_some_iff.mp hdetect
    obtain ⟨g, hg⟩ := Option.isSome_iff_exists.mp (withId?_isSome_of_claimant? hclaim)
    -- The id is that of a grammar that was added, so looking it up does not change it.
    obtain ⟨own, hown, hid⟩ := withId?_isSome_iff.mp (withId?_isSome_of_claimant? hclaim)
    obtain ⟨d, hd, rfl⟩ := List.mem_map.mp hown
    refine ⟨g, ?_, id_of_withId? hg⟩
    rw [get?_of_records h, ← hid, canonical_id (htrim d hd), hid, hg, Option.some_or]
  · exact List.pairwise_map.mpr table.grammars.sorted
  · intro id
    rw [ids, Dict.mem_keys, h.grammars]
    exact withId?_isSome_iff

/-- The second language takes an extension and an alias from the first, and the third takes
the id of the first. -/
def dialects : List Definition :=
  [{ id := "lisp".toList, extensions := ["EL".toList, "lsp".toList], aliases := ["elisp".toList] },
    { id := "Emacs".toList, extensions := ["el".toList],
      aliases := ["ELISP".toList, "lisp".toList] },
    { id := "Lisp".toList, extensions := ["cl".toList], quotes := ['"'] }]

theorem answers_additions_dialects :
    let plain : Definition := { id := "Plain".toList }
    let table := ofDefinitions plain dialects
    let added := (plain :: dialects).map Grammar.ofDefinition
    (∀ d ∈ plain :: dialects, Text.trim d.id = d.id) ∧
    table.ids = ["emacs".toList, "lisp".toList, "plain".toList] ∧
    table.detect? ⟨"init.EL".toList⟩ = some "emacs".toList ∧
    table.detect? ⟨"old.lsp".toList⟩ = some "lisp".toList ∧
    (∃ g, table.get? "lisp".toList = some g ∧ g.id = "lisp".toList) ∧
    table.get? " Elisp ".toList = (withId? "elisp".toList added).or
      ((claimant? Grammar.aliases "elisp".toList added).bind fun owner => withId? owner added) ∧
    ((table.get? " Elisp ".toList).map Grammar.id,
      (table.get? "LISP".toList).map Grammar.quotes) = (some "emacs".toList, some ['"']) := by
  intro plain table added
  have htrim : ∀ d ∈ plain :: dialects, Text.trim d.id = d.id := by decide
  obtain ⟨-, -, hget, -, hdetect, -⟩ := answers_additions plain dialects htrim
  have hlisp : table.detect? ⟨"old.lsp".toList⟩ = some "lisp".toList := by decide +kernel
  have hname : Text.canonical " Elisp ".toList = "elisp".toList := by decide +kernel
  have helisp := hget " Elisp ".toList
  rw [hname] at helisp
  exact ⟨htrim, by decide +kernel, by decide +kernel, hlisp, hdetect _ _ hlisp, helisp,
    by decide +kernel⟩

end LanguageTable
end Listing
