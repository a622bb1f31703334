/-
The style sheet of a profile.
-/
import Listing.Style.Profile

namespace Listing
namespace Stylesheet

/-- A rule: a selector and the declarations that hold for it. -/
def rule (selector : String) (declarations : List (String × Text)) : Text :=
  selector.toList ++ " \x7b ".toList
    ++ declarations.flatMap (fun (name, value) => name.toList ++ ": ".toList ++ value ++ "; ".toList)
    ++ "\x7d\n".toList

def weight (bold : Bool) : Text := if bold then "bold".toList else "normal".toList

def slant (italic : Bool) : Text := if italic then "italic".toList else "normal".toList

def pixels (n : Nat) : Text := Text.ofNat n ++ "px".toList

/-- The colour of a token class. -/
def tokenRule (p : Palette) (kind : TokenClass) : Text :=
  match kind.styleClass? with
  | some name => rule (String.ofList ('.' :: name)) [("color", p.get (Slot.ofClass kind))]
  | none => []

/-- The whole style sheet. -/
def ofProfile (p : Profile) : Text :=
  rule "body"
      [("margin", "0".toList), ("padding", "1em".toList), ("background", p.colours.background),
        ("color", p.colours.foreground)]
    ++ rule ".code"
      [("font-family", p.fonts.code), ("font-size", pixels p.fontSizes.code),
        ("line-height", "1.4".toList), ("font-weight", weight p.fontStyles.codeBold),
        ("font-style", slant p.fontStyles.codeItalic),
        ("max-width", Text.ofNat p.maxWidth ++ "ch".toList)]
    ++ rule ".line" [("white-space", "pre".toList), ("min-height", "1.4em".toList)]
    ++ rule ".ln"
      [("user-select", "none".toList), ("-webkit-user-select", "none".toList),
        ("opacity", "0.5".toList), ("padding-right", "1ch".toList)]
    ++ TokenClass.styled.flatMap (tokenRule p.colours)
    ++ rule ".tok-comment"
      [("font-weight", weight p.fontStyles.commentBold),
        ("font-style", slant p.fontStyles.commentItalic)]
    ++ rule ".line.comment .tok-comment"
      [("font-family", p.fonts.comment), ("font-size", pixels p.fontSizes.comment)]

end Stylesheet
end Listing
