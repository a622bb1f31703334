/-
The table of languages: grammars by id, alias and file extension.

A look-up by id never fails, since an id that is not known stands for the fallback
grammar.
-/
import Listing.Dict
import Listing.Grammar.Languages
import Listing.Path

namespace Listing

/-- Grammars under their ids, and the ids that aliases and extensions stand for. -/
structure LanguageTable where
  grammars : Dict Grammar
  aliases : Dict Text
  extensions : Dict Text
  fallback : Grammar

namespace LanguageTable

/-- Adds a grammar.  Its id, aliases and extensions are its own from now on,
whoever claimed them before. -/
def add (table : LanguageTable) (g : Grammar) : LanguageTable where
  grammars := table.grammars.insert g.id g
  aliases := g.aliases.foldl (fun d a => d.insert a g.id) table.aliases
  extensions := g.extensions.foldl (fun d e => d.insert e g.id) table.extensions
  fallback := table.fallback

/-- The table of one grammar, which is also the fallback. -/
def ofFallback (g : Grammar) : LanguageTable :=
  add ⟨Dict.empty, Dict.empty, Dict.empty, g⟩ g

/-- The table of the languages known without set-up. -/
def standard : LanguageTable :=
  Languages.all.foldl (fun table d => table.add (Grammar.ofDefinition d))
    (ofFallback (Grammar.ofDefinition Languages.text))

/-- The grammar of an id, or else of an alias. -/
def get? (table : LanguageTable) (id : Text) : Option Grammar :=
  let name := Text.canonical id
  match table.grammars.get? name with
  | some g => some g
  | none => (table.aliases.get? name).bind table.grammars.get?

def lookup (table : LanguageTable) (id : Text) : Grammar :=
  (table.get? id).getD table.fallback

/-- The id of the language that a file's extension stands for. -/
def detect? (table : LanguageTable) (path : Path) : Option Text :=
  path.extension?.bind fun ext => table.extensions.get? (Text.lowercase ext)

/-- The ids in increasing order. -/
def ids (table : LanguageTable) : List Text := table.grammars.keys

end LanguageTable
end Listing
