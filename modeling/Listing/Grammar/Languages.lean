/-
The languages that are known without any set-up.
-/
import Listing.Grammar.Basic

namespace Listing
namespace Languages

/-- Words separated by blanks. -/
def wordList (s : String) : List Text := Text.words s.toList

def javascriptWords : List Text := wordList
  "async await break case catch class const continue debugger default delete do else export
   extends false finally for from function get if import in instanceof let new null of return
   set static super switch this throw true try typeof undefined var void while with yield"

/-- What a language of types adds to the words above. -/
def typescriptWords : List Text := wordList
  "abstract any as boolean declare enum implements interface is keyof module namespace never
   number private protected public readonly string symbol type unknown"

def javascript : Definition where
  id := "javascript".toList
  extensions := wordList "js mjs cjs jsx"
  aliases := wordList "js node"
  keywords := javascriptWords
  lineComments := wordList "//"
  blockComment := some ("/*".toList, "*/".toList)
  quotes := ['"', '\'', '`']

def typescript : Definition where
  id := "typescript".toList
  extensions := wordList "ts mts cts tsx"
  aliases := wordList "ts"
  keywords := javascriptWords ++ typescriptWords
  lineComments := wordList "//"
  blockComment := some ("/*".toList, "*/".toList)
  quotes := ['"', '\'', '`']

/-- A single quote is no quote here, so that lifetimes open no string. -/
def rust : Definition where
  id := "rust".toList
  extensions := wordList "rs"
  aliases := wordList "rs"
  keywords := wordList
    "as async await break const continue crate dyn else enum extern false fn for if impl in let
     loop match mod move mut pub ref return self Self static struct super trait true type unsafe
     use where while"
  lineComments := wordList "//"
  blockComment := some ("/*".toList, "*/".toList)
  quotes := ['"']

def c : Definition where
  id := "c".toList
  extensions := wordList "c h cpp hpp cc cxx"
  aliases := wordList "cpp c++"
  keywords := wordList
    "auto break case char const continue default do double else enum extern float for goto if
     inline int long register restrict return short signed sizeof static struct switch typedef
     union unsigned void volatile while
     bool catch class constexpr delete explicit false friend mutable namespace new noexcept
     nullptr operator private protected public template this throw true try typename using
     virtual"
  lineComments := wordList "//"
  blockComment := some ("/*".toList, "*/".toList)
  quotes := ['"', '\'']

def python : Definition where
  id := "python".toList
  extensions := wordList "py pyw pyi"
  aliases := wordList "py"
  keywords := wordList
    "False None True and as assert async await break class continue def del elif else except
     finally for from global if import in is lambda nonlocal not or pass raise return try while
     with yield"
  lineComments := wordList "#"
  quotes := ['"', '\'']

def go : Definition where
  id := "go".toList
  extensions := wordList "go"
  aliases := wordList "golang"
  keywords := wordList
    "break case chan const continue default defer else fallthrough false for func go goto
     if import interface iota map nil package range return select struct switch true type var"
  lineComments := wordList "//"
  blockComment := some ("/*".toList, "*/".toList)
  quotes := ['"', '\'', '`']

def shell : Definition where
  id := "shell".toList
  extensions := wordList "sh bash zsh"
  aliases := wordList "sh bash zsh"
  keywords := wordList
    "case declare do done elif else esac exit export fi for function if in local readonly return
     select shift source then time until unset while"
  lineComments := wordList "#"
  quotes := ['"', '\'']

def css : Definition where
  id := "css".toList
  extensions := wordList "css scss less"
  keywords := wordList
    "auto charset font import important inherit initial keyframes media none supports unset"
  blockComment := some ("/*".toList, "*/".toList)
  quotes := ['"', '\'']

def html : Definition where
  id := "html".toList
  extensions := wordList "html htm xhtml xml svg"
  aliases := wordList "xml"
  keywords := wordList
    "a body button div form head html img input li link meta ol p script span style table td th
     title tr ul"
  blockComment := some ("<!--".toList, "-->".toList)
  quotes := ['"', '\'']

def sqlWords : List Text := wordList
  "and as asc begin by case commit create delete desc distinct drop else end exists from group
   having in index inner insert into is join left like limit not null on or order outer primary
   key right rollback select set table then union update values when where with"

/-- Reserved words are known in small letters and in capitals, not mixed. -/
def sql : Definition where
  id := "sql".toList
  extensions := wordList "sql"
  keywords := sqlWords ++ sqlWords.map (·.map Char.toUpper)
  lineComments := wordList "--"
  blockComment := some ("/*".toList, "*/".toList)
  quotes := ['\'', '"']

def toml : Definition where
  id := "toml".toList
  extensions := wordList "toml"
  keywords := wordList "true false"
  lineComments := wordList "#"
  quotes := ['"', '\'']

/-- For sources in a language that is not known: no words are reserved, and the
most common comments and quotes are. -/
def text : Definition where
  id := "text".toList
  extensions := wordList "txt"
  aliases := wordList "plain plaintext"
  lineComments := wordList "// #"
  blockComment := some ("/*".toList, "*/".toList)
  quotes := ['"', '\'', '`']

/-- Every language but the fallback, in the order in which they claim their names. -/
def all : List Definition :=
  [javascript, typescript, rust, c, python, go, shell, css, html, sql, toml]

end Languages
end Listing
